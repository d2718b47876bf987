import Sheetsmith.Proofs.Text.Pieces

namespace Sheetsmith.Text

/-- Where no place of a text has a match, the text stays in single characters. The condition `quiet`
may look at the character in front, and has to be handed on from each place to the next one. -/
theorem pieces_eq_map_plain {recognize : Recognizer} {quiet : Option Char → List Char → Prop}
    (hquiet : ∀ before c rest, quiet before (c :: rest) →
      (∀ n, recognize before (c :: rest) ≠ some (n + 1)) ∧ quiet (some c) rest)
    {before : Option Char} {cs : List Char} (h : quiet before cs) :
    pieces recognize before cs = cs.map .plain := by
  induction cs generalizing before with
  | nil => simp [pieces]
  | cons c rest ih =>
    obtain ⟨hnone, hrest⟩ := hquiet before c rest h
    rw [pieces]
    split
    · next n hn => exact absurd hn (hnone n)
    · rw [ih hrest, List.map_cons]

/-- A step that succeeds on each element succeeds on the list, and gives the list of its answers. -/
theorem mapM_eq_ok_map {ε α β : Type} {f : α → Except ε β} {g : α → β} {as : List α}
    (h : ∀ a ∈ as, f a = .ok (g a)) : as.mapM f = .ok (as.map g) := by
  induction as with
  | nil => rfl
  | cons a as ih =>
    rw [List.mapM_cons, h a (by simp), ih fun b hb => h b (by simp [hb])]
    rfl

theorem exists_of_map_eq_ok {ε α β : Type} {f : α → β} {x : Except ε α} {b : β}
    (h : f <$> x = .ok b) : ∃ a, x = .ok a ∧ f a = b := by
  cases x with
  | error e => cases h
  | ok a => exact ⟨a, rfl, Except.ok.inj h⟩

theorem mapM_cons_eq_ok {ε α β : Type} {f : α → Except ε β} {a : α} {as : List α} {bs : List β}
    (h : (a :: as).mapM f = .ok bs) :
    ∃ b rest, f a = .ok b ∧ as.mapM f = .ok rest ∧ bs = b :: rest := by
  rw [List.mapM_cons] at h
  cases hb : f a with
  | error e =>
    rw [hb] at h
    cases h
  | ok b =>
    cases hrest : as.mapM f with
    | error e =>
      rw [hb, hrest] at h
      cases h
    | ok rest =>
      rw [hb, hrest] at h
      cases h
      exact ⟨b, rest, rfl, rfl, rfl⟩

/-- A text without matches stays as it is, and its replacement succeeds, whatever the image is and
also if it would fail on a match. -/
theorem replaceAllM_eq_self {ε : Type} {recognize : Recognizer}
    {image : List Char → Except ε (List Char)} {cs : List Char}
    (h : pieces recognize none cs = cs.map .plain) : replaceAllM recognize image cs = .ok cs := by
  rw [replaceAllM, mapM_eq_ok_map (g := Piece.chars)]
  · have hchars := flatMap_chars_pieces recognize none cs
    exact congrArg Except.ok hchars
  · intro piece hpiece
    rw [h] at hpiece
    obtain ⟨c, -, rfl⟩ := List.mem_map.1 hpiece
    rfl

section

variable (joint : Char) (body : List Char → Option Nat) (image : List Char → List Char)

/-- A character behind which a match may start. -/
def isLead (c : Char) : Bool :=
  !(isWordChar c || c == joint)

/-- The replacement of the matches of `body`, with the place in front of the text a boundary or not.
A match that has just ended is no boundary. -/
def rewriteFrom (bounded : Bool) (cs : List Char) : List Char :=
  match cs with
  | [] => []
  | c :: rest =>
    match if bounded then body (c :: rest) else none with
    | some (n + 1) => image (c :: rest.take n) ++ rewriteFrom false (rest.drop n)
    | _ => c :: rewriteFrom (isLead joint c) rest
termination_by cs.length

variable {joint body image}

theorem rewriteFrom_false (c : Char) (rest : List Char) :
    rewriteFrom joint body image false (c :: rest) =
      c :: rewriteFrom joint body image (isLead joint c) rest := by
  rw [rewriteFrom]
  rfl

/-- Where nothing is found at a place it does not matter whether the place is a boundary. -/
theorem rewriteFrom_of_none {cs : List Char} (h : body cs = none) (bounded : Bool) :
    rewriteFrom joint body image bounded cs = rewriteFrom joint body image false cs := by
  cases cs with
  | nil => rw [rewriteFrom, rewriteFrom]
  | cons c rest =>
    rw [rewriteFrom, h, ite_self, rewriteFrom_false]

/-- A word that is found as a whole at a boundary is replaced by its image. The place behind it is
no boundary, so a second word that follows without a gap is passed over. -/
theorem rewriteFrom_of_some {word rest : List Char} (hne : word ≠ [])
    (h : body (word ++ rest) = some word.length) :
    rewriteFrom joint body image true (word ++ rest) =
      image word ++ rewriteFrom joint body image false rest := by
  cases word with
  | nil => exact absurd rfl hne
  | cons c word =>
    rw [List.cons_append] at h ⊢
    rw [rewriteFrom, if_pos rfl, h, List.length_cons]
    dsimp only
    rw [List.take_left, List.drop_left]

/-- Text without leads is passed over when it does not start at a boundary, so the words inside of
longer words and numbers stay. -/
theorem rewriteFrom_append {word : List Char} (hword : ∀ c ∈ word, isLead joint c = false)
    (rest : List Char) :
    rewriteFrom joint body image false (word ++ rest) =
      word ++ rewriteFrom joint body image false rest := by
  induction word with
  | nil => rfl
  | cons c word ih =>
    rw [List.cons_append, rewriteFrom_false, hword c (by simp), ih fun d hd => hword d (by simp [hd]),
      List.cons_append]

/-- Behind a character that was passed over, a match starts at the next lead. -/
theorem afterBoundary_some (before c : Char) (rest : List Char) :
    afterBoundary joint body (some before) (c :: rest) =
      if isLead joint c then (body rest).map (· + 1) else none := by
  unfold afterBoundary isLead
  dsimp only
  cases isWordChar c || c == joint <;> rfl

section

variable (hbody : ∀ cs n, body cs = some n → 0 < n ∧ n ≤ cs.length)
include hbody

/-- What is found is a word at the front of the text, and not the empty one. -/
theorem exists_word_of_body {cs : List Char} {n : Nat} (h : body cs = some n) :
    ∃ word after, word ≠ [] ∧ cs = word ++ after ∧ n = word.length := by
  obtain ⟨hpos, hle⟩ := hbody cs n h
  refine ⟨cs.take n, cs.drop n, ?_, (List.take_append_drop n cs).symm, by simp [hle]⟩
  rw [← List.length_pos_iff, List.length_take]
  omega

/-- Behind a character that was passed over, a replacement behind boundaries goes through the text
as one that does not start at a boundary. The induction is on the length of the text, since a match
takes in more than one character. -/
theorem replaced_afterBoundary
    (himage : ∀ c word rest, isLead joint c = true → body (word ++ rest) = some word.length →
      image (c :: word) = c :: image word) (n : Nat) :
    ∀ (before : Char) (cs : List Char), cs.length ≤ n →
      replaced (afterBoundary joint body) image (some before) cs =
        rewriteFrom joint body image false cs := by
  induction n with
  | zero =>
    intro before cs hcs
    obtain rfl := List.length_eq_zero_iff.1 (Nat.le_zero.1 hcs)
    rw [replaced, pieces, rewriteFrom]
    rfl
  | succ n ih =>
    intro before cs hcs
    cases cs with
    | nil =>
      rw [replaced, pieces, rewriteFrom]
      rfl
    | cons c rest =>
      have hrest : rest.length ≤ n := by simpa using hcs
      rw [rewriteFrom_false]
      by_cases hnone : isLead joint c = true → body rest = none
      · -- A lead that nothing matches behind is passed over, and so is any other character.
        have hpass : rewriteFrom joint body image (isLead joint c) rest =
            rewriteFrom joint body image false rest := by
          cases hc : isLead joint c with
          | false => rfl
          | true => rw [rewriteFrom_of_none (hnone hc) true]
        rw [replaced_of_not_some, ih c rest hrest, hpass]
        intro m hm
        rw [afterBoundary_some] at hm
        split at hm
        · next hc => simp [hnone hc] at hm
        · cases hm
      · obtain ⟨hc, hsome⟩ := Classical.not_imp.1 hnone
        obtain ⟨m, hm⟩ := Option.ne_none_iff_exists'.1 hsome
        obtain ⟨word, after, hne, rfl, rfl⟩ := exists_word_of_body hbody hm
        have hmatch : afterBoundary joint body (some before) (c :: (word ++ after)) =
            some (word.length + 1) := by
          rw [afterBoundary_some, if_pos hc, hm, Option.map_some]
        obtain ⟨last, hlast⟩ : ∃ last, (c :: word).getLast? = some last :=
          ⟨_, List.getLast?_eq_some_getLast (List.cons_ne_nil c word)⟩
        rw [replaced_of_some hmatch, List.take_left, List.drop_left, hlast,
          ih last after (by simp at hrest; omega), himage c word after hc hm, hc,
          rewriteFrom_of_some hne hm]
        rfl

/-- A replacement behind boundaries goes through the text from left to right, and the character in
front of a match may as well be passed over before it. Matches are not empty and do not reach over
the end of the text, and the image is assumed to keep a lead in front. -/
theorem replaceAll_afterBoundary
    (himage : ∀ c word rest, isLead joint c = true → body (word ++ rest) = some word.length →
      image (c :: word) = c :: image word) (cs : List Char) :
    replaceAll (afterBoundary joint body) image cs = rewriteFrom joint body image true cs := by
  have hbehind (before : Char) (cs : List Char) :=
    replaced_afterBoundary hbody himage cs.length before cs (Nat.le_refl _)
  cases cs with
  | nil => rw [replaceAll, pieces, rewriteFrom, List.flatMap_nil]
  | cons c rest =>
    show replaced (afterBoundary joint body) image none (c :: rest) = _
    cases hm : body (c :: rest) with
    | none =>
      have hsame : afterBoundary joint body none (c :: rest) =
          afterBoundary joint body (some c) (c :: rest) := by
        unfold afterBoundary
        simp [hm]
      have hreplaced : replaced (afterBoundary joint body) image none (c :: rest) =
          replaced (afterBoundary joint body) image (some c) (c :: rest) := by
        rw [replaced, replaced, pieces, pieces, hsame]
      rw [hreplaced, hbehind c (c :: rest)]
      exact (rewriteFrom_of_none hm true).symm
    | some m =>
      obtain ⟨word, after, hne, hcs, rfl⟩ := exists_word_of_body hbody hm
      have hmatch : afterBoundary joint body none (c :: rest) = some word.length := by
        unfold afterBoundary
        simp [hm]
      obtain ⟨d, word, rfl⟩ := List.exists_cons_of_ne_nil hne
      obtain ⟨last, hlast⟩ : ∃ last, (d :: word).getLast? = some last :=
        ⟨_, List.getLast?_eq_some_getLast (List.cons_ne_nil d word)⟩
      rw [hcs] at hm hmatch ⊢
      rw [List.cons_append] at hmatch ⊢
      rw [replaced_of_some hmatch, List.take_left, List.drop_left, hlast, hbehind last after,
        ← List.cons_append, rewriteFrom_of_some hne hm]

end

end

end Sheetsmith.Text
