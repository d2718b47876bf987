import Sheetsmith.Proofs.Optimize.Passes
import Sheetsmith.Proofs.Value.Positioned

namespace Sheetsmith.Value

open Text

/-- The parts of the value of a property, its weights already being numbers. -/
def recolored (read : Color.Reader) (property value : String) : Except Color.Fault (List Part) :=
  if colorless.contains property then .ok [.kept (weighed property value)]
  else recolor read (weighed property value)

/-- What is written for a part. -/
def Part.written (property : String) (part : Part) : List Char :=
  (part.rewrite (positioned property)).new

/-- Shortening the colours of a property's value writes its parts, or its text where it may have no
colours. Both sides fail together, where the reader does. -/
theorem colored_eq (read : Color.Reader) (property value : String) :
    colored read property (weighed property value) =
      (fun parts => parts.flatMap Part.new) <$> recolored read property value := by
  unfold colored recolored
  split
  · exact congrArg Except.ok (List.append_nil _).symm
  · exact shortenColors_eq read _

/-- The value is one text that stays, or its parts are as the search for colours leaves them. -/
theorem recolored_eq_ok {read : Color.Reader} {property value : String} {parts : List Part}
    (h : recolored read property value = .ok parts) :
    parts = [.kept (weighed property value)] ∨
      (Recolors read none parts ∧ parts.flatMap Part.old = weighed property value) := by
  unfold recolored at h
  split at h
  · cases h
    exact .inl rfl
  · obtain ⟨outs, houts, rfl⟩ := exists_of_map_eq_ok h
    exact .inr (recolors_pieces houts)

/-- Shortening colours fuses no lexemes, where no character that would go on with a colour stands
right behind it. Each colour is written as one lexeme, with the end of the value behind it or a
character that does not go on with it, and the value is otherwise made of the same lexemes. The
condition is one on the parts of the value before; the reader may be any that writes by hexadecimal
digits, and the property any. -/
theorem lexemes_optimizeWords {read : Color.Reader} (hread : read.WritesHex)
    (property value : String)
    (hguarded : ∀ parts, recolored read property value = .ok parts → Guarded parts) :
    (∀ out, optimizeWords read property value = .ok out →
      ∃ parts, recolored read property value = .ok parts ∧
        parts.flatMap Part.old = weighed property value ∧
        parts.flatMap (Part.written property) = out.toList ∧
        (∀ front token hex back, parts = front ++ .color token hex :: back →
          lexemes hex = [hex] ∧
            ∀ c ∈ (back.flatMap (Part.written property)).head?, continues c = false) ∧
        lexemes out.toList = parts.flatMap (fun part => lexemes (part.written property)) ∧
        (Detached parts →
          lexemes (weighed property value) = parts.flatMap fun part => lexemes part.old)) ∧
    (read.Total → ∃ out, optimizeWords read property value = .ok out) := by
  refine ⟨fun out hout => ?_, fun htotal => exists_optimizeWords_eq_ok htotal property value⟩
  obtain ⟨cs, hcs, hwritten⟩ := optimizeWords_eq_ok hout
  rw [colored_eq] at hcs
  obtain ⟨parts, hparts, rfl⟩ := exists_of_map_eq_ok hcs
  have hguarded := hguarded parts hparts
  obtain ⟨hold, hspaced, hlexemes⟩ : parts.flatMap Part.old = weighed property value ∧
      Spaced parts ∧ (Detached parts → lexemes (weighed property value) =
        parts.flatMap fun part => lexemes part.old) := by
    rcases recolored_eq_ok hparts with rfl | ⟨hrecolors, hold⟩
    · exact ⟨by simp [Part.old], ⟨by simp, trivial⟩, fun _ => by simp [Part.old]⟩
    · exact ⟨hold, hrecolors.spaced hread hguarded,
        fun hdetached => hold ▸ hrecolors.lexemes_old hguarded hdetached⟩
  obtain ⟨hpositioned, hflat⟩ := hspaced.positioned property
  have hout : out.toList = (parts.map (.rewrite (positioned property))).flatMap Part.new :=
    hwritten.trans hflat
  refine ⟨parts, hparts, hold, ?_, ?_, ?_, hlexemes⟩
  · rw [hout, List.flatMap_map]
    rfl
  · rintro front token hex back rfl
    rw [List.map_append] at hpositioned
    obtain ⟨hhex, hgap, hback⟩ := hpositioned.of_append
    have hhead := hback.head_new hgap
    rw [List.flatMap_map] at hhead
    exact ⟨Color.lexemes_isHex hhex, hhead⟩
  · rw [hout, hpositioned.lexemes_new, List.flatMap_map]
    rfl

theorem eq_ok_of_toOption {ε α : Type} {x : Except ε α} {a : α} (h : x.toOption = some a) :
    x = .ok a := by
  cases x with
  | error e => cases h
  | ok b => exact congrArg Except.ok (Option.some.inj h)

/-- What the words of a value come to, given its parts. Nothing is assumed about the parts
themselves. -/
theorem optimizeWords_of_recolored {read : Color.Reader} {property value : String}
    {parts : List Part} (h : recolored read property value = .ok parts) :
    optimizeWords read property value =
      .ok (String.ofList (positioned property (parts.flatMap Part.new))) := by
  rw [optimizeWords_eq, colored_eq, h]
  rfl

/-- Three forms of a colour, each with something else behind it. -/
theorem lexemes_optimizeWords_threeForms :
    let parts := [.color "rgb(255, 0,0)".toList "#f00".toList, .kept [','],
      .color "black".toList "#000".toList, .kept [' '], .color "#aabbcc".toList "#abc".toList]
    Color.opaqueHex.WritesHex ∧
      recolored Color.opaqueHex "background" "rgb(255, 0,0),black #aabbcc" = .ok parts ∧
      Guarded parts ∧ Detached parts ∧
      ∃ out, optimizeWords Color.opaqueHex "background" "rgb(255, 0,0),black #aabbcc" = .ok out ∧
        lexemes out.toList = ["#f00".toList, [','], "#000".toList, [' '], "#abc".toList] := by
  intro parts
  have hparts : recolored Color.opaqueHex "background" "rgb(255, 0,0),black #aabbcc" = .ok parts :=
    eq_ok_of_toOption (by decide +kernel)
  have hguarded : Guarded parts := by decide
  have hdetached : Detached parts := by
    refine ⟨?_, ?_, trivial⟩
    · rintro token hex ⟨⟩ - c ⟨⟩
      decide
    · rintro token hex ⟨⟩ hmark
      exact absurd rfl hmark
  have hout := optimizeWords_of_recolored hparts
  obtain ⟨hlexemes, -⟩ := lexemes_optimizeWords Color.writesHex_opaqueHex "background"
    "rgb(255, 0,0),black #aabbcc" fun other hother => by
      rw [hparts] at hother
      cases hother
      exact hguarded
  obtain ⟨other, hother, -, -, -, hout', -⟩ := hlexemes _ hout
  rw [hparts] at hother
  cases hother
  exact ⟨Color.writesHex_opaqueHex, hparts, hguarded, hdetached, _, hout,
    hout'.trans (by decide +kernel)⟩

/-- Nothing looks at what is behind a call: its digits and the word behind it become one lexeme. -/
theorem lexemes_optimizeWords_ne :
    recolored Color.opaqueHex "background" "rgb(0,0,0)no-repeat" =
        .ok [.color "rgb(0,0,0)".toList "#000".toList, .kept "no-repeat".toList] ∧
      optimizeWords Color.opaqueHex "background" "rgb(0,0,0)no-repeat" = .ok "#000no-repeat" ∧
      continues 'n' = true ∧ lexemes "#000no-repeat".toList = ["#000no-repeat".toList] := by
  have hparts : recolored Color.opaqueHex "background" "rgb(0,0,0)no-repeat" =
      .ok [.color "rgb(0,0,0)".toList "#000".toList, .kept "no-repeat".toList] :=
    eq_ok_of_toOption (by decide +kernel)
  refine ⟨hparts, ?_, by decide, by decide +kernel⟩
  rw [optimizeWords_of_recolored hparts]
  rfl

end Sheetsmith.Value
