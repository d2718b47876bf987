import Sheetsmith.Proofs.Value.LengthSweeps

namespace Sheetsmith.Value

open Text

/-- The weights behind a place as numbers, with the place inside a word or not. -/
def weighFrom (inside : Bool) (cs : List Char) : List Char :=
  if inside then
    cs.takeWhile (!isBlank ·) ++
      replaceAll (run (!isBlank ·)) weightNumber (cs.dropWhile (!isBlank ·))
  else replaceAll (run (!isBlank ·)) weightNumber cs

section

variable {c : Char} {cs : List Char}

theorem weighFrom_nil (inside : Bool) : weighFrom inside [] = [] := by
  cases inside <;> simp [weighFrom, replaceAll, pieces]

theorem weighFrom_blank (hc : isBlank c = true) (inside : Bool) :
    weighFrom inside (c :: cs) = c :: weighFrom false cs := by
  have hpass : replaceAll (run (!isBlank ·)) weightNumber (c :: cs) =
      c :: replaceAll (run (!isBlank ·)) weightNumber cs := by
    have hrun : run (!isBlank ·) none (c :: cs) = some 0 := by simp [run, hc]
    rw [replaceAll, pieces, hrun]
    dsimp only
    rw [List.flatMap_cons, pieces_run_eq (some c) none]
    rfl
  cases inside <;> simp [weighFrom, hc, hpass]

theorem weighFrom_inside (hc : isBlank c = false) :
    weighFrom true (c :: cs) = c :: weighFrom true cs := by
  simp [weighFrom, hc]

/-- A word that starts at the place is replaced as a whole, if it is a weight. It ends at the next
blank or at the end of the text. -/
theorem weighFrom_word (hc : isBlank c = false) :
    weighFrom false (c :: cs) = weightNumber (c :: cs.takeWhile (!isBlank ·)) ++
      weighFrom false (cs.dropWhile (!isBlank ·)) := by
  have hrun : run (!isBlank ·) none (c :: cs) = some ((cs.takeWhile (!isBlank ·)).length + 1) := by
    simp [run, hc]
  simp only [weighFrom, Bool.false_eq_true, if_false]
  rw [replaceAll, pieces, hrun]
  dsimp only
  rw [List.flatMap_cons, take_length_takeWhile, pieces_run_eq _ none, drop_length_takeWhile]
  rfl

/-- A word that is no weight is passed over. The rest of it is passed over character by character,
as inside a word. -/
theorem weighFrom_of_not_weight (hc : isBlank c = false)
    (hword : weightNumber (c :: cs.takeWhile (!isBlank ·)) = c :: cs.takeWhile (!isBlank ·)) :
    weighFrom false (c :: cs) = c :: weighFrom true cs := by
  rw [weighFrom_word hc, hword]
  simp [weighFrom]

end

/-- A word with a character that no weight has. -/
theorem weightNumber_of_mem {word : List Char} {d : Char} (hd : d ∈ word)
    (hletter : d.toLower ∉ "normalbold".toList) : weightNumber word = word := by
  have hne {name : String} (hname : ∀ c ∈ name.toList, c ∈ "normalbold".toList) :
      fold word ≠ name.toList := fun hfold =>
    hletter (hname _ (hfold ▸ List.mem_map_of_mem hd))
  rw [weightNumber, if_neg (hne (forall_mem_of_all (by decide))),
    if_neg (hne (forall_mem_of_all (by decide)))]

/-- A word that is replaced is made of letters of the two weights, and its number is one of two.
Nothing but a whole word is ever replaced. -/
theorem weightNumber_ne_self {word : List Char} (h : weightNumber word ≠ word) :
    (∀ c ∈ word, c.toLower ∈ "normalbold".toList) ∧
      (weightNumber word = "400".toList ∨ weightNumber word = "700".toList) := by
  refine ⟨fun c hc => ?_, ?_⟩
  · by_contra hletter
    exact h (weightNumber_of_mem hc hletter)
  · unfold weightNumber at h ⊢
    split at h
    · next hnormal => exact .inl (if_pos hnormal)
    · next hnormal =>
      split at h
      · next hbold => exact .inr (by rw [if_neg hnormal, if_pos hbold])
      · exact absurd rfl h

section

variable {d : Char} (hd : isBlank d = false) (hletter : d.toLower ∉ "normalbold".toList)
include hd hletter

/-- A character that no weight has makes its word none. -/
theorem weighFrom_cons (inside : Bool) (rest : List Char) :
    weighFrom inside (d :: rest) = d :: weighFrom true rest := by
  cases inside with
  | false => exact weighFrom_of_not_weight hd (weightNumber_of_mem (by simp) hletter)
  | true => exact weighFrom_inside hd

/-- Verbatim text is weighed by itself, up to its end, if no weight has the character that it ends
with. -/
theorem weighFrom_append_cons (inside : Bool) (front rest : List Char) :
    weighFrom inside (front ++ d :: rest) =
      weighFrom inside (front ++ [d]) ++ weighFrom true rest := by
  induction hlength : front.length using Nat.strongRecOn generalizing front inside with
  | ind n ih =>
    subst hlength
    cases front with
    | nil =>
      rw [List.nil_append, List.nil_append, weighFrom_cons hd hletter, weighFrom_cons hd hletter,
        weighFrom_nil]
      rfl
    | cons c front =>
      have ihfront (inside : Bool) := ih front.length (by simp) inside front rfl
      rw [List.cons_append, List.cons_append]
      cases hc : isBlank c with
      | true => rw [weighFrom_blank hc, weighFrom_blank hc, ihfront, List.cons_append]
      | false =>
        cases inside with
        | true => rw [weighFrom_inside hc, weighFrom_inside hc, ihfront, List.cons_append]
        | false =>
          by_cases hall : ∀ e ∈ front, (!isBlank e) = true
          · -- The word goes on to the end of the verbatim text at least.
            have hword (rest : List Char) :
                weighFrom false (c :: (front ++ d :: rest)) =
                  c :: weighFrom true (front ++ d :: rest) := by
              refine weighFrom_of_not_weight hc (weightNumber_of_mem (d := d) ?_ hletter)
              rw [List.takeWhile_append_of_pos hall]
              simp [hd]
            rw [hword, hword, ihfront, List.cons_append]
          · obtain ⟨word, blank, back, rfl, hword, hblank⟩ := exists_first_not hall
            have hsplit (rest : List Char) :
                weighFrom false (c :: (word ++ blank :: back ++ d :: rest)) =
                  weightNumber (c :: word) ++ weighFrom false (blank :: back ++ d :: rest) := by
              rw [List.append_assoc, weighFrom_word hc, List.cons_append,
                takeWhile_append_of_head hword (by rintro e ⟨⟩; exact hblank),
                List.dropWhile_append_of_pos hword, List.dropWhile_cons_of_neg (by simp [hblank])]
            have hlt : (blank :: back).length < (c :: (word ++ blank :: back)).length := by
              simp only [List.length_cons, List.length_append]
              omega
            rw [hsplit, hsplit, ih (blank :: back).length hlt _ (blank :: back) rfl,
              List.append_assoc]

end

/-- Writing weights as numbers goes on in steps and puts digits in the place of letters. -/
theorem sweeper_weighFrom : Sweeper weighFrom false where
  nil := weighFrom_nil
  verbatim s text rest htext hkeeps := by
    obtain ⟨c, tail, hcons, hc⟩ := htext.exists_cons
    have hblank : isBlank c = false := by
      rw [Bool.eq_false_iff]
      intro hblank
      have hquiet := (isIdle_of_isBlank hblank).isQuiet
      exact hc.elim hquiet.1 hquiet.2
    have hletter : c.toLower ∉ "normalbold".toList := by
      rcases hc with (rfl | rfl) | hc
      · decide
      · decide
      · rw [hc]
        decide
    have hself : weighFrom s text = text := by
      rw [hcons, weighFrom_cons hblank hletter, ← weighFrom_cons hblank hletter false, ← hcons,
        hkeeps]
    obtain ⟨front, d, rfl, hd⟩ := htext.exists_concat
    have hletter' : d.toLower ∉ "normalbold".toList := by
      rcases hd with (rfl | rfl) | rfl <;> decide
    refine ⟨true, ?_⟩
    rw [List.append_assoc, List.singleton_append,
      weighFrom_append_cons (IsCloser.apart hd).2.2.2.2.2.2 hletter', hself]
  step s c rest hquote := by
    cases hc : isBlank c with
    | true => exact .inl ⟨false, weighFrom_blank hc s⟩
    | false =>
      cases s with
      | true => exact .inl ⟨true, weighFrom_inside hc⟩
      | false =>
        by_cases hword : weightNumber (c :: rest.takeWhile (!isBlank ·)) =
            c :: rest.takeWhile (!isBlank ·)
        · exact .inl ⟨true, weighFrom_of_not_weight hc hword⟩
        · obtain ⟨hletters, hnumber⟩ := weightNumber_ne_self hword
          refine .inr ⟨c :: rest.takeWhile (!isBlank ·), _, rest.dropWhile (!isBlank ·), false,
            by simp, weighFrom_word hc, by simp, fun d hd => ?_, ?_, ?_⟩
          · have hd := hletters d hd
            refine ⟨⟨?_, ?_⟩, ?_⟩
            · rintro (rfl | rfl) <;> exact absurd hd (by decide)
            · intro hu
              rw [hu] at hd
              exact absurd hd (by decide)
            · rintro rfl
              exact absurd hd (by decide)
          · rcases hnumber with hnumber | hnumber <;> rw [hnumber] <;> decide
          · rcases hnumber with hnumber | hnumber <;> rw [hnumber] <;>
              exact forall_mem_of_all (by decide)

end Sheetsmith.Value
