import Sheetsmith.Proofs.Text.Parts
import Sheetsmith.Proofs.Usage.Sift

namespace Sheetsmith

open Text

/-- A text that is trimmed starts with no blank. -/
theorem Text.isBlank_eq_false_of_trim_eq {c : Char} {cs : List Char} (h : trim (c :: cs) = c :: cs) :
    isBlank c = false := by
  rw [← Bool.not_eq_true]
  intro hc
  have hblank : AllBlank [c] := by simpa [AllBlank] using hc
  have htrim : trim (c :: cs) = trim cs := trim_blank_append hblank cs
  have hlength := congrArg List.length (h.symm.trans htrim)
  have hle := length_trim_le cs
  rw [List.length_cons] at hlength
  omega

namespace Usage

open Sheet (selectorParts)

/-- No part of the header starts with `@`, unless it is that of an at-rule. -/
def IsPlain (header : Option String) : Prop :=
  ∀ selector ∈ header, isAtRule selector = false →
    ∀ part ∈ selectorParts selector, part.toList.head? ≠ some '@'

instance (header : Option String) : Decidable (IsPlain header) :=
  inferInstanceAs (Decidable (∀ selector ∈ header, isAtRule selector = false →
    ∀ part ∈ selectorParts selector, part.toList.head? ≠ some '@'))

/-- Two headers that shelter the same groups. -/
def Alike (a b : Option String) : Prop :=
  a.map isAtRule = b.map isAtRule ∧ opensKeyframes a = opensKeyframes b

theorem Alike.refl (a : Option String) : Alike a a :=
  ⟨rfl, rfl⟩

theorem Alike.trans {a b c : Option String} (hab : Alike a b) (hbc : Alike b c) : Alike a c :=
  ⟨hab.1.trans hbc.1, hab.2.trans hbc.2⟩

theorem Alike.symm {a b : Option String} (h : Alike a b) : Alike b a :=
  ⟨h.1.symm, h.2.symm⟩

/-- Only at-rules open keyframes, since a header is asked for the `@` in both cases. -/
theorem opensKeyframes_eq_false {selector : String} (h : isAtRule selector = false) :
    opensKeyframes (some selector) = false := by
  have hhead : selector.toList.head? ≠ some '@' := by
    intro hat
    obtain ⟨cs, hcs⟩ := List.head?_eq_some_iff.1 hat
    have hblank : isBlank '@' = false := by decide
    rw [isAtRule, hcs, trimStart, List.dropWhile_cons, hblank] at h
    cases h
  rw [opensKeyframes, beq_eq_false_iff_ne.2 hhead, Bool.false_and]

/-- The parts of a selector are trimmed and hold no comma. -/
theorem trimmed_of_mem_selectorParts {selector part : String} (h : part ∈ selectorParts selector) :
    ',' ∉ part.toList ∧ trim part.toList = part.toList := by
  rw [selectorParts] at h
  split at h
  · cases h
  · obtain ⟨cs, hcs, rfl⟩ := List.mem_map.1 h
    rw [String.toList_ofList]
    exact ⟨fun hmem => not_mem_of_mem_splitAtEach hcs (mem_of_mem_trim hmem), trim_trim cs⟩

section

variable {parts : List String}
  (hparts : ∀ part ∈ parts, ',' ∉ part.toList ∧ trim part.toList = part.toList)
include hparts

/-- Parts that were put together are found again. Only a single empty part is lost. -/
theorem selectorParts_intercalate (hne : parts ≠ []) :
    selectorParts (", ".intercalate parts) = if parts = [""] then [] else parts := by
  have hempty : (", ".intercalate parts).isEmpty = true ↔ parts = [""] := by
    rw [String.isEmpty_iff]
    match parts, hne with
    | [part], _ => simp
    | part :: next :: parts, _ => simp [String.intercalate_cons_cons]
  have hgap : AllBlank [' '] := by decide
  have hsplit : (splitAtEach ',' ([',', ' '].intercalate (parts.map String.toList))).map trim =
      parts.map String.toList :=
    map_trim_splitAtEach_intercalate hgap (by decide) (by simpa using hne) (by simpa using hparts)
  rw [selectorParts]
  by_cases hlost : parts = [""]
  · rw [if_pos (hempty.2 hlost), if_pos hlost]
  · rw [if_neg (mt hempty.1 hlost), if_neg hlost, String.toList_intercalate]
    have hback := congrArg (List.map String.ofList) hsplit
    simpa [Function.comp_def] using hback

/-- A selector that is put together starts as one of its parts, or with a comma. It starts with no
blank. -/
theorem head?_intercalate {c : Char} (h : (", ".intercalate parts).toList.head? = some c) :
    isBlank c = false ∧ (c = ',' ∨ ∃ part ∈ parts, part.toList.head? = some c) := by
  rw [String.toList_intercalate] at h
  have hpart (part : String) (hmem : part ∈ parts) (hstart : part.toList.head? = some c) :
      isBlank c = false ∧ (c = ',' ∨ ∃ part ∈ parts, part.toList.head? = some c) := by
    obtain ⟨cs, hcs⟩ := List.head?_eq_some_iff.1 hstart
    have htrim := (hparts part hmem).2
    rw [hcs] at htrim
    exact ⟨isBlank_eq_false_of_trim_eq htrim, .inr ⟨part, hmem, hstart⟩⟩
  match parts with
  | [] => cases h
  | [part] =>
    rw [List.map_singleton, List.intercalate_singleton] at h
    exact hpart part List.mem_cons_self h
  | part :: next :: parts =>
    rw [List.map_cons, List.map_cons, List.intercalate_cons_cons] at h
    cases hcs : part.toList with
    | nil =>
      rw [hcs] at h
      cases h
      exact ⟨by decide, .inl rfl⟩
    | cons d cs =>
      rw [hcs] at h
      refine hpart part List.mem_cons_self ?_
      rw [hcs]
      exact h

/-- Parts that do not start with `@` make no at-rule, in whatever order they are put together. -/
theorem isAtRule_intercalate (hplain : ∀ part ∈ parts, part.toList.head? ≠ some '@') :
    isAtRule (", ".intercalate parts) = false := by
  have hhead : (", ".intercalate parts).toList.head? ≠ some '@' := by
    intro hat
    rcases (head?_intercalate hparts hat).2 with hcomma | ⟨part, hpart, hstart⟩
    · exact absurd hcomma (by decide)
    · exact hplain part hpart hstart
  rw [isAtRule, beq_eq_false_iff_ne]
  cases hlist : (", ".intercalate parts).toList with
  | nil => simp [trimStart]
  | cons c cs =>
    have hc : (", ".intercalate parts).toList.head? = some c := by rw [hlist]; rfl
    rw [trimStart, List.dropWhile_cons, (head?_intercalate hparts hc).1]
    rwa [hlist] at hhead

end

end Usage

end Sheetsmith
