import Sheetsmith.Proofs.Text.Rewriting
import Sheetsmith.Value.Basic

namespace Sheetsmith.Value

open Text

/-- The value with its named weights as numbers, if it is the value of a weight. -/
def weighed (property value : String) : List Char :=
  if property = "font" ∨ property = "font-weight" then foldWeights value.toList else value.toList

/-- The value with its colours in their shortest form, if the property may have colours. -/
def colored (read : Color.Reader) (property : String) (value : List Char) :
    Except Color.Fault (List Char) :=
  if colorless.contains property then .ok value else shortenColors read value

/-- The value with its position keywords as percentages, if it is a position. -/
def positioned (property : String) (value : List Char) : List Char :=
  if property = "background-position" then shortenPosition value else value

/-- The words of a value are shortened in three stages. Weights come first, then the colours, and
the position keywords last. -/
theorem optimizeWords_eq (read : Color.Reader) (property value : String) :
    optimizeWords read property value = (fun out => String.ofList (positioned property out)) <$>
      colored read property (weighed property value) := by
  unfold optimizeWords colored weighed positioned
  dsimp only
  split
  · rfl
  · cases shortenColors read _ <;> rfl

/-- Where this succeeds, the colours have been shortened, and the other two stages cannot fail.
Nothing is assumed about the property or about the value. -/
theorem optimizeWords_eq_ok {read : Color.Reader} {property value out : String}
    (h : optimizeWords read property value = .ok out) :
    ∃ cs, colored read property (weighed property value) = .ok cs ∧
      out.toList = positioned property cs := by
  rw [optimizeWords_eq] at h
  obtain ⟨cs, hcs, rfl⟩ := exists_of_map_eq_ok h
  exact ⟨cs, hcs, String.toList_ofList⟩

end Sheetsmith.Value
