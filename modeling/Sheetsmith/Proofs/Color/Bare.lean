import Sheetsmith.Proofs.Color.Forms
import Sheetsmith.Proofs.Value.Sweeping

namespace Sheetsmith.Color

open Text Value

/-- A reader that recognizes no text with a quote, a backslash or a `url`. -/
def Reader.ReadsBare (read : Reader) : Prop :=
  ∀ text hex, read text = .ok (some hex) →
    (∀ c ∈ text.toList, ¬ IsQuote c ∧ c ≠ '\\') ∧ verbatims text.toList = []

theorem IsBare.apart {cs : List Char} (h : IsBare cs) : ∀ c ∈ cs, ¬ IsQuote c ∧ c ≠ '\\' := by
  intro c hc
  refine ⟨?_, ?_⟩
  · rintro (rfl | rfl) <;> exact h _ (by decide) hc
  · rintro rfl
    exact h _ (by decide) hc

/-- Bare text has no parenthesis and no quote, so nothing in it is kept as it stands. -/
theorem IsBare.verbatims_eq_nil {cs : List Char} (h : IsBare cs) : verbatims cs = [] :=
  Value.verbatims_eq_nil (fun c hc => (h.apart c hc).1) fun _ _ _ hurl =>
    absurd (hurl.subset (by simp)) (h '(' (by decide))

section

variable {name arguments : List Char} (hname : folded (String.ofList (trimEnd name)) ∈ callNames)
include hname

/-- The names of the functions are bare, also with blanks behind them and in any letter case. -/
theorem isBare_of_callName : IsBare name := by
  have hnames : ∀ name ∈ callNames, IsBare name.toList := by decide
  obtain ⟨blanks, hblanks, heq⟩ := exists_trimEnd name
  have hbare := hnames _ hname
  rw [folded, String.toList_ofList, String.toList_ofList] at hbare
  rw [heq, isBare_append]
  exact ⟨isBare_of_fold hbare, isBare_of_class (by decide) hblanks⟩

/-- No function is a `url`, so what is in its parentheses is not kept as it stands. -/
theorem fold_ne_url {front : List Char} {u r l : Char} (h : name = front ++ [u, r, l]) :
    fold [u, r, l] ≠ "url".toList := by
  intro hurl
  have hnames : ∀ name ∈ callNames, ¬ "url".toList <:+ name.toList := by decide
  obtain ⟨blanks, hblanks, heq⟩ := exists_trimEnd name
  have hnil : blanks = [] := by
    rcases List.eq_nil_or_concat blanks with hnil | ⟨blanks, d, rfl⟩
    · exact hnil
    · -- The last letter would be a blank.
      have hlast := congrArg List.getLast? (h.symm.trans heq)
      rw [List.concat_eq_append, ← List.append_assoc, List.getLast?_concat] at hlast
      obtain rfl : l = d := by simpa using hlast
      have hl : l.toLower = 'l' := by
        simp [fold] at hurl
        exact hurl.2.2
      have hblank := hblanks l (by simp)
      have halpha := isAlpha_of_toLower (by rw [hl]; decide : l.toLower.isAlpha = true)
      rw [(isBlank_of_isAlpha halpha).1] at hblank
      cases hblank
  rw [hnil, List.append_nil, h] at heq
  refine hnames _ hname ⟨fold front, ?_⟩
  rw [← hurl, folded, String.toList_ofList, String.toList_ofList, h, ← heq, fold, fold, fold,
    List.map_append]

end

/-- A function of bare values holds no string and no `url`. The name may be in any letter case and
may have blanks behind it. -/
theorem verbatims_call_eq_nil {name arguments : List Char}
    (hname : folded (String.ofList (trimEnd name)) ∈ callNames) (harguments : IsBare arguments) :
    (∀ c ∈ name ++ '(' :: (arguments ++ [')']), ¬ IsQuote c ∧ c ≠ '\\') ∧
      verbatims (name ++ '(' :: (arguments ++ [')'])) = [] := by
  have hbare := isBare_of_callName hname
  have hrest : IsBare (arguments ++ [')']) := isBare_append.2 ⟨harguments, by decide⟩
  have hapart : ∀ c ∈ name ++ '(' :: (arguments ++ [')']), ¬ IsQuote c ∧ c ≠ '\\' :=
    List.forall_mem_append.2 ⟨hbare.apart, List.forall_mem_cons.2 ⟨by decide, hrest.apart⟩⟩
  refine ⟨hapart, verbatims_eq_nil (fun c hc => (hapart c hc).1) fun u r l hurl => ?_⟩
  obtain ⟨front, back, hcs⟩ := hurl
  -- The parenthesis is the one behind the name.
  have hsplit : name ++ '(' :: (arguments ++ [')']) = (front ++ [u, r, l]) ++ '(' :: back := by
    rw [← hcs]
    simp
  obtain ⟨hfront, -⟩ := (List.append_cons_inj_of_notMem (hbare '(' (by decide))
    (hrest '(' (by decide))).1 hsplit
  exact fold_ne_url hname hfront

/-- The reader of the program is such a reader: neither the name of a colour nor its values hold a
quote, a backslash or a `url`. Nothing is said of texts that are no colours. -/
theorem readsBare_opaqueHex : opaqueHex.ReadsBare := by
  intro text hex h
  unfold opaqueHex at h
  cases hread : read? text with
  | error e =>
    rw [hread] at h
    cases h
  | ok answer =>
    rw [hread] at h
    obtain ⟨color, rfl, -⟩ := Option.bind_eq_some_iff.1 (Except.ok.inj h)
    obtain ⟨hapart, hnil⟩ : (∀ c ∈ trim text.toList, ¬ IsQuote c ∧ c ≠ '\\') ∧
        verbatims (trim text.toList) = [] := by
      rcases isBare_of_read? hread with hbare | ⟨name, arguments, hcs, hname, harguments⟩
      · exact ⟨hbare.apart, hbare.verbatims_eq_nil⟩
      · rw [hcs]
        exact verbatims_call_eq_nil hname harguments
    refine ⟨?_, by rw [← (spares_trim _).verbatims, hnil]⟩
    obtain ⟨left, right, hleft, hright, heq⟩ := exists_trim text.toList
    have hblank {blanks : List Char} (h : AllBlank blanks) : ∀ c ∈ blanks, ¬ IsQuote c ∧ c ≠ '\\' :=
      fun c hc => ⟨(isIdle_of_isBlank (h c hc)).quote, (isIdle_of_isBlank (h c hc)).escape⟩
    rw [heq]
    exact List.forall_mem_append.2 ⟨hblank hleft, List.forall_mem_append.2 ⟨hapart, hblank hright⟩⟩

end Sheetsmith.Color
