import Sheetsmith.Proofs.Text.Literal
import Sheetsmith.Proofs.Value.Spacing
import Sheetsmith.Proofs.Value.Stages

namespace Sheetsmith

namespace Text

theorem mem_zip_tail {a b : Char} {cs : List Char} (h : [a, b] <:+: cs) :
    (a, b) ∈ cs.zip cs.tail := by
  obtain ⟨front, back, rfl⟩ := h
  induction front with
  | nil => simp
  | cons c front ih =>
    cases front with
    | nil => simp
    | cons d front => exact List.mem_cons_of_mem _ ih

end Text

open Text

namespace Value

/-- A spelling and its image that keep away from colours: it has a blank, it does not reach from the
digits of a colour over a character that ends them, and where it starts behind a colour, its image
does not go on with the colour either. -/
structure ClearsColors (word image : List Char) : Prop where
  blank : ' ' ∈ word
  mark : '#' ∉ word
  border : ∀ pair ∈ word.zip word.tail, isHexDigit pair.1 = true → continues pair.2 = true
  image_ne_nil : image ≠ []
  head : (∀ c ∈ word.head?, continues c = false) → ∀ c ∈ image.head?, continues c = false

/-- All position keywords that are replaced have a blank in them and keep away from colours. -/
theorem clearsColors_positionWords :
    ∀ entry ∈ positionWords, ClearsColors entry.1.toList entry.2.toList := by
  intro entry hentry
  have htable : ∀ entry ∈ positionWords, ' ' ∈ entry.1.toList ∧ '#' ∉ entry.1.toList ∧
      (∀ pair ∈ entry.1.toList.zip entry.1.toList.tail,
        isHexDigit pair.1 = true → continues pair.2 = true) ∧ entry.2.toList ≠ [] ∧
      ((entry.1.toList.head?.all fun c => !continues c) = true →
        (entry.2.toList.head?.all fun c => !continues c) = true) := by
    decide
  have hall {o : Option Char} : (o.all fun c => !continues c) = true ↔
      ∀ c ∈ o, continues c = false := by
    simp [Option.all_eq_true]
  obtain ⟨hblank, hmark, hborder, himage, hhead⟩ := htable entry hentry
  exact ⟨hblank, hmark, hborder, himage, fun hword => hall.1 (hhead (hall.2 hword))⟩

/-- A part with its text rewritten; colours stay. -/
def Part.rewrite (f : List Char → List Char) : Part → Part
  | kept text => kept (f text)
  | color token hex => color token hex

namespace ClearsColors

variable {word image : String} (h : ClearsColors word.toList image.toList)
include h

/-- Text that goes on with no colour still does not when the spelling is replaced in it. -/
theorem head_replaceLiteral {text : List Char} (htext : ∀ c ∈ text.head?, continues c = false) :
    ∀ c ∈ (replaceLiteral word image text).head?, continues c = false := by
  cases text with
  | nil => simp [replaceLiteral, replaceAll, pieces]
  | cons d rest =>
    change ∀ c ∈ (replaced (literal word.toList) (fun _ => image.toList) none (d :: rest)).head?,
      continues c = false
    cases hn : literal word.toList none (d :: rest) with
    | none =>
      rw [replaced_of_not_some (by simp [hn])]
      exact htext
    | some n =>
      obtain ⟨hspelled, hlength⟩ := literal_eq_some_iff.1 hn
      obtain ⟨e, tail, hword⟩ := List.exists_cons_of_ne_nil (List.ne_nil_of_mem h.blank)
      rw [hword] at hspelled hlength
      obtain ⟨n, rfl⟩ : ∃ m, n = m + 1 := ⟨tail.length, hlength.symm⟩
      rw [replaced_of_some hn, List.head?_append_of_ne_nil _ h.image_ne_nil]
      refine h.head ?_
      rw [hword]
      obtain ⟨rfl, -⟩ := List.cons_prefix_cons.1 hspelled
      exact htext

/-- No occurrence of the spelling reaches from a colour into the text behind it, or from a text into
the colour behind it. -/
theorem not_occurs {a b : Char} (hb : continues b = false)
    (hborder : isHexDigit a = true ∨ a = '#' ∨ b = '#') : ¬ [a, b] <:+: word.toList := by
  intro hoccurs
  have hmem {c : Char} (hc : c ∈ [a, b]) : c ≠ '#' := fun heq =>
    h.mark (heq ▸ hoccurs.subset hc)
  rcases hborder with ha | ha | hmark
  · have hcontinues := h.border _ (mem_zip_tail hoccurs) ha
    rw [hb] at hcontinues
    cases hcontinues
  · exact hmem (by simp) ha
  · exact hmem (by simp) hmark

/-- A colour stays as it is, and nothing is found across its end. What stands in front of the colour
is not looked at. -/
theorem replaceLiteral_isHex {hex rest : List Char} (hhex : Color.IsHex hex)
    (hrest : ∀ c ∈ rest.head?, continues c = false) :
    replaceLiteral word image (hex ++ rest) = hex ++ replaceLiteral word image rest := by
  obtain ⟨digits, rfl, hdigits⟩ := hhex
  have hblank : ' ' ∉ '#' :: digits := by
    intro hmem
    rcases List.mem_cons.1 hmem with heq | hmem
    · cases heq
    · exact absurd (hdigits _ hmem) (by decide)
  refine (replaced_literal_append fun a ha b hb => h.not_occurs (hrest b hb) ?_).trans
    (congrArg (· ++ _) (replaced_literal_of_not_mem h.blank hblank))
  rcases List.mem_cons.1 (List.mem_of_getLast? ha) with heq | hmem
  · exact .inr (.inl heq)
  · exact .inl (hdigits a hmem)

/-- Replacing such a spelling rewrites the text between the colours. The colours stay as they are.
-/
theorem replaceLiteral_spaced {parts : List Part} (hparts : Spaced parts) :
    Spaced (parts.map (.rewrite (replaceLiteral word image))) ∧
      replaceLiteral word image (parts.flatMap Part.new) =
        (parts.map (.rewrite (replaceLiteral word image))).flatMap Part.new := by
  induction parts with
  | nil => exact ⟨trivial, by simp [replaceLiteral, replaceAll, pieces]⟩
  | cons part parts ih =>
    cases part with
    | color token hex =>
      obtain ⟨hhex, hgap, hparts⟩ := hparts
      obtain ⟨hspaced, hflat⟩ := ih hparts
      refine ⟨⟨hhex, ?_, hspaced⟩, ?_⟩
      · cases parts with
        | nil => simp [gap]
        | cons next parts =>
          cases next with
          | color token hex => simp [gap, Part.rewrite]
          | kept text => exact h.head_replaceLiteral hgap
      · rw [List.flatMap_cons, List.map_cons, List.flatMap_cons, ← hflat]
        exact h.replaceLiteral_isHex hhex (hparts.head_new hgap)
    | kept text =>
      obtain ⟨hnext, hparts⟩ := hparts
      obtain ⟨hspaced, hflat⟩ := ih hparts
      refine ⟨⟨fun more hmore => ?_, hspaced⟩, ?_⟩
      · cases parts with
        | nil => cases hmore
        | cons next parts =>
          cases next with
          | kept more => exact hnext more rfl
          | color token hex => cases hmore
      · rw [List.flatMap_cons, List.map_cons, List.flatMap_cons, ← hflat]
        refine replaced_literal_append fun a ha b hb => ?_
        -- What is behind the text is a colour.
        have hmark : b = '#' := by
          cases parts with
          | nil => cases hb
          | cons next parts =>
            cases next with
            | kept more => exact absurd rfl (hnext more)
            | color token hex =>
              obtain ⟨digits, rfl, -⟩ := hparts.1
              cases hb
              rfl
        exact h.not_occurs (by rw [hmark]; decide) (.inr (.inr hmark))

end ClearsColors

theorem Part.map_rewrite_rewrite (f g : List Char → List Char) (parts : List Part) :
    (parts.map (rewrite f)).map (rewrite g) = parts.map (rewrite fun text => g (f text)) := by
  rw [List.map_map]
  exact List.map_congr_left fun part _ => by cases part <;> rfl

theorem Part.map_rewrite_id (parts : List Part) : parts.map (rewrite fun text => text) = parts :=
  (List.map_congr_left fun part _ => by cases part <;> rfl).trans (List.map_id parts)

theorem Spaced.foldl_replaceLiteral {entries : List (String × String)}
    (hentries : ∀ entry ∈ entries, ClearsColors entry.1.toList entry.2.toList) {parts : List Part}
    (h : Spaced parts) :
    let replace (text : List Char) :=
      entries.foldl (fun text (word, image) => replaceLiteral word image text) text
    Spaced (parts.map (.rewrite replace)) ∧
      replace (parts.flatMap Part.new) = (parts.map (.rewrite replace)).flatMap Part.new := by
  induction entries generalizing parts with
  | nil =>
    dsimp only [List.foldl_nil]
    rw [Part.map_rewrite_id]
    exact ⟨h, rfl⟩
  | cons entry entries ih =>
    obtain ⟨hspaced, hflat⟩ := (hentries entry (by simp)).replaceLiteral_spaced h
    have hrest := ih (fun other hother => hentries other (by simp [hother])) hspaced
    dsimp only [List.foldl_cons] at hrest ⊢
    rw [hflat]
    rwa [Part.map_rewrite_rewrite] at hrest

/-- The position keywords are replaced in the text between the colours, whatever the property is. -/
theorem Spaced.positioned {parts : List Part} (h : Spaced parts) (property : String) :
    Spaced (parts.map (.rewrite (positioned property))) ∧
      Value.positioned property (parts.flatMap Part.new) =
        (parts.map (.rewrite (positioned property))).flatMap Part.new := by
  by_cases hproperty : property = "background-position"
  · have heq : Value.positioned property = shortenPosition := funext fun _ => if_pos hproperty
    rw [heq]
    exact h.foldl_replaceLiteral clearsColors_positionWords
  · have heq : Value.positioned property = fun text => text := funext fun _ => if_neg hproperty
    rw [heq, Part.map_rewrite_id]
    exact ⟨h, rfl⟩

end Value

end Sheetsmith
