import Sheetsmith.Proofs.Vendor.Calls

namespace Sheetsmith

namespace Gradient

open Text

/-- Replacing a word by one of small letters brings no new call, if it has a letter that no function
has. -/
theorem quiet_literal (word : List Char) {image : List Char} (himage : ∀ c ∈ image, c.isLower = true)
    (hlacks : 'o' ∈ image ∨ 'f' ∈ image) : Quiet (literal word) fun _ => image := by
  have hstarts {name : List Char} (hname : Spelled name) (after : List Char) :
      startsCall name (image ++ after) = false := by
    refine startsCall_word_append
      (fun c hc => isWordChar_of_isAlpha (isAlpha_iff.2 (.inr (himage c hc)))) ?_ after
    rcases hlacks with hmem | hmem
    · refine ⟨_, hmem, fun x hx => ?_⟩
      obtain ⟨hx, ho, -⟩ := hname x hx
      rwa [toLower_eq_self hx, toLower_eq_self (.inl (himage _ hmem))]
    · refine ⟨_, hmem, fun x hx => ?_⟩
      obtain ⟨hx, -, hf⟩ := hname x hx
      rwa [toLower_eq_self hx, toLower_eq_self (.inl (himage _ hmem))]
  constructor
  · intro before c rest n hn name hname after h
    rw [hstarts hname] at h
    cases h
  · intro before c rest n hn name hname boundary after h
    have hne : image ≠ [] := by
      rintro rfl
      simp at hlacks
    rw [calls_append_of_no_boundary hne fun x hx => isBoundary_eq_false (.inl (himage x hx)),
      hstarts hname.spelled] at h
    simpa using h

/-- A name fits into the text that starts with it. -/
theorem length_le_of_startsCall {name cs : List Char} (h : startsCall name cs = true) :
    name.length ≤ cs.length := by
  rw [startsCall, startsWithFold, Bool.and_eq_true, beq_iff_eq] at h
  have hlength := congrArg List.length h.1
  simp only [fold, List.length_map, List.length_take] at hlength
  omega

/-- A call is matched at the start of a text, or together with the boundary in front of it. In the
second case its length includes that boundary. -/
theorem call_eq (function : String) (before : Option Char) (c : Char) (rest : List Char) :
    call function before (c :: rest) =
      if before.isNone && startsCall function.toList (c :: rest) then some function.length
      else if isBoundary c && startsCall function.toList rest then some (function.length + 1)
      else none := by
  have hbody (cs : List Char) :
      (if startsWithFold function.toList cs && wordEnds (cs.drop function.length) then
        some function.length else none) =
      if startsCall function.toList cs then some function.length else none := by
    rw [startsCall, String.length_toList]
  simp only [call, afterBoundary, hbody]
  cases before with
  | none =>
    cases hstarts : startsCall function.toList (c :: rest) <;>
      cases hrest : startsCall function.toList rest <;>
        cases hc : isWordChar c || c == '-' <;> simp [isBoundary, hc]
  | some d =>
    cases hrest : startsCall function.toList rest <;>
      cases hc : isWordChar c || c == '-' <;> simp [isBoundary, hc]

/-- A match of a call is the name alone, at the start of a text, or the name behind a boundary. -/
theorem call_eq_some {function : String} {before : Option Char} {c : Char} {rest : List Char}
    {n : Nat} (h : call function before (c :: rest) = some (n + 1)) :
    (before = none ∧ n + 1 = function.length ∧ startsCall function.toList (c :: rest) = true) ∨
      (n = function.length ∧ isBoundary c = true ∧ startsCall function.toList rest = true) := by
  rw [call_eq] at h
  split at h
  · next hstart =>
    rw [Bool.and_eq_true, Option.isNone_iff_eq_none] at hstart
    exact .inl ⟨hstart.1, (Option.some.inj h).symm, hstart.2⟩
  · split at h
    · next hlead =>
      rw [Bool.and_eq_true] at hlead
      exact .inr ⟨(Nat.succ.inj (Option.some.inj h)).symm, hlead⟩
    · cases h

/-- Replacing calls by a vendor's form brings no new call, since the form starts with a hyphen and
has no boundary in it. -/
theorem quiet_call (function : String) {form : List Char} (hform : ∀ x ∈ form, isBoundary x = false)
    (hhead : form.head? = some '-') :
    Quiet (call function) fun hit => hit.take (hit.length - function.length) ++ form := by
  obtain ⟨tail, rfl⟩ : ∃ tail, form = '-' :: tail := List.head?_eq_some_iff.1 hhead
  -- What is left of a match in front of the form is its first character, if that is a boundary.
  have himage {before : Option Char} {c : Char} {rest : List Char} {n : Nat}
      (h : call function before (c :: rest) = some (n + 1)) :
      let hit := c :: rest.take n
      before = none ∧ hit.take (hit.length - function.length) = [] ∨
        isBoundary c = true ∧ hit.take (hit.length - function.length) = [c] := by
    rcases call_eq_some h with ⟨hbefore, hn, hstarts⟩ | ⟨rfl, hc, hstarts⟩
    · have hlength := length_le_of_startsCall hstarts
      simp only [String.length_toList, List.length_cons] at hlength
      refine .inl ⟨hbefore, ?_⟩
      rw [List.take_eq_nil_iff, List.length_cons, List.length_take]
      omega
    · have hlength := length_le_of_startsCall hstarts
      rw [String.length_toList] at hlength
      refine .inr ⟨hc, ?_⟩
      rw [List.length_cons, List.length_take, Nat.min_eq_left hlength, Nat.add_sub_cancel_left]
      rfl
  constructor
  · intro before c rest n hn name hname after h
    rcases himage hn with ⟨hbefore, -⟩ | ⟨hc, hlead⟩
    · cases hbefore
    · rw [hlead] at h
      cases name with
      | nil => simpa [wordEnds] using h
      | cons x name =>
        rw [List.append_assoc, List.singleton_append, startsCall_of_isBoundary hname (by simp) hc] at h
        cases h
  · intro before c rest n hn name hname boundary after h
    obtain ⟨x, name, rfl, hx⟩ := hname.head
    have hstarts : startsCall (x :: name) ('-' :: tail ++ after) = false := by
      have hne : x ≠ '-' := by
        rintro rfl
        cases hx
      rw [List.cons_append, startsCall_cons_cons, toLower_eq_self (.inl hx)]
      simp [hne]
    have hcalls (b : Bool) (h : calls (x :: name) b ('-' :: tail ++ after) = true) :
        calls (x :: name) false after = true := by
      rw [calls_append_of_no_boundary (by simp) hform, hstarts] at h
      simpa using h
    rcases himage hn with ⟨-, hlead⟩ | ⟨hc, hlead⟩
    · rw [hlead, List.nil_append] at h
      exact hcalls boundary h
    · rw [hlead, List.append_assoc, List.singleton_append, calls_cons,
        startsCall_of_isBoundary hname.spelled (by simp) hc, Bool.and_false, Bool.false_or] at h
      exact hcalls _ h

/-- Without a match at a place, no call starts there or behind its first character. The name must
not be empty. -/
theorem startsCall_of_not_call {function : String} {before : Option Char} {c : Char}
    {rest : List Char} (hne : function.length ≠ 0)
    (h : ∀ n, call function before (c :: rest) = some (n + 1) → False) :
    (before.isNone && startsCall function.toList (c :: rest)) = false ∧
      (isBoundary c && startsCall function.toList rest) = false := by
  rw [call_eq] at h
  split at h
  · obtain ⟨n, hn⟩ := Nat.exists_eq_succ_of_ne_zero hne
    exact absurd (congrArg some hn) (h n)
  · next hstart =>
    split at h
    · exact absurd rfl (h _)
    · next hlead => exact ⟨Bool.eq_false_iff.2 hstart, Bool.eq_false_iff.2 hlead⟩

theorem Callable.length_ne_zero {function : String} (h : Callable function.toList) :
    function.length ≠ 0 := by
  rw [← String.length_toList]
  exact fun hzero => h.ne_nil (List.length_eq_zero_iff.1 hzero)

/-- The matches of a call tell whether the function is called. A match takes in the boundary in
front of it, and no other call starts there. -/
theorem any_pieces_call {function : String} (hfunction : Callable function.toList)
    (before : Option Char) (cs : List Char) :
    ((pieces (call function) before cs).any fun
      | .plain _ => false
      | .hit _ => true) = calls function.toList before.isNone cs := by
  induction before, cs using pieces.induct (call function) with
  | case1 before => simp [pieces, calls]
  | case2 before c rest n hn ih =>
    rw [pieces, hn, List.any_cons, Bool.true_or, calls_cons]
    rcases call_eq_some hn with ⟨rfl, -, hstarts⟩ | ⟨-, hc, hstarts⟩
    · simp [hstarts]
    · rw [hc, calls_eq hfunction.ne_nil true rest, hstarts, Bool.and_true, Bool.true_or,
        Bool.or_true]
  | case3 before c rest hn ih =>
    obtain ⟨hstart, hlead⟩ := startsCall_of_not_call hfunction.length_ne_zero hn
    rw [calls_cons, hstart, Bool.false_or, calls_eq hfunction.ne_nil, hlead, Bool.false_or]
    rw [pieces]
    split
    · next n hsome => exact absurd hsome (hn n)
    · rw [List.any_cons, Bool.false_or, ih]
      rfl

theorem uses_eq_calls {function : String} (hfunction : Callable function.toList) (value : String) :
    uses function value = calls function.toList true value.toList :=
  any_pieces_call hfunction none value.toList

/-- A function is no longer called when its calls have been replaced. This holds for every text and
for every quiet image. -/
theorem calls_replaced_call {function : String} (hfunction : Callable function.toList)
    {image : List Char → List Char} (hquiet : Quiet (call function) image) (before : Option Char)
    (cs : List Char) :
    calls function.toList before.isNone (replaced (call function) image before cs) = false := by
  induction before, cs using pieces.induct (call function) with
  | case1 before => simp [replaced, pieces, calls]
  | case2 before c rest n hn ih =>
    rw [replaced_of_some hn, Bool.eq_false_iff]
    intro h
    have hrest := hquiet.calls hn hfunction h
    rw [show (c :: rest.take n).getLast?.isNone = false by simp, Bool.eq_false_iff] at ih
    exact ih hrest
  | case3 before c rest hn ih =>
    obtain ⟨hstart, hlead⟩ := startsCall_of_not_call hfunction.length_ne_zero hn
    rw [replaced_of_not_some hn, calls_cons, calls_eq hfunction.ne_nil, Bool.or_eq_false_iff,
      Bool.or_eq_false_iff]
    refine ⟨?_, ?_, ih⟩
    · rw [Bool.and_eq_false_iff] at hstart ⊢
      exact hstart.imp id fun h => Bool.eq_false_iff.2 fun hstarts =>
        Bool.eq_false_iff.1 h (hquiet.startsCall_of_cons hfunction hstarts)
    · rw [Bool.and_eq_false_iff] at hlead ⊢
      exact hlead.imp id fun h => Bool.eq_false_iff.2 fun hstarts =>
        Bool.eq_false_iff.1 h (hquiet.startsCall_of_replaced hfunction.spelled c rest hstarts)

/-- The words that vendors write for directions bring no new call. -/
theorem quiet_direction :
    (Quiet (literal "to bottom".toList) fun _ => "top".toList) ∧
      Quiet (literal "to right".toList) fun _ => "left".toList :=
  ⟨quiet_literal _ (forall_mem_of_all (by decide)) (.inl (by decide)),
    quiet_literal _ (forall_mem_of_all (by decide)) (.inr (by decide))⟩

/-- Writing a vendor's form of a function makes no other call, and takes away the calls of the
function. The form has to start with a hyphen and to be free of boundaries, as all forms of the
table are. -/
theorem uses_of_uses_withForm {function form value other : String}
    (hfunction : Callable function.toList) (hother : Callable other.toList)
    (hform : ∀ x ∈ form.toList, isBoundary x = false) (hhead : form.toList.head? = some '-')
    (h : uses other (withForm function form value) = true) :
    uses other value = true ∧ other ≠ function := by
  have hquiet := quiet_call function hform hhead
  rw [uses_eq_calls hother, withForm, String.toList_ofList] at h
  have h := quiet_direction.2.calls_of_replaced hother true none _ h
  have h := quiet_direction.1.calls_of_replaced hother true none _ h
  refine ⟨?_, ?_⟩
  · rw [uses_eq_calls hother]
    exact hquiet.calls_of_replaced hother true none _ h
  · rintro rfl
    exact Bool.eq_false_iff.1 (calls_replaced_call hfunction hquiet none _) h

end Gradient

end Sheetsmith
