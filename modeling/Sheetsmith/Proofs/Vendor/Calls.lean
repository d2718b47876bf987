import Sheetsmith.Proofs.Text.Ascii
import Sheetsmith.Proofs.Text.Pieces
import Sheetsmith.Proofs.Text.Trim
import Sheetsmith.Vendor.Gradient

namespace Sheetsmith

namespace Gradient

open Text

/-- A character behind which the name of a function may start. -/
def isBoundary (c : Char) : Bool :=
  !(isWordChar c || c == '-')

/-- Whether a text starts with the name of a function as a word of its own. -/
def startsCall (name cs : List Char) : Bool :=
  startsWithFold name cs && wordEnds (cs.drop name.length)

/-- Whether the name of a function stands behind a boundary of a text; `boundary`
tells whether the place before the text is one. -/
def calls (name : List Char) : (boundary : Bool) → List Char → Bool
  | _, [] => false
  | boundary, c :: cs => boundary && startsCall name (c :: cs) || calls name (isBoundary c) cs

/-- The characters that the names of the gradient functions are spelled with. -/
def Spelled (name : List Char) : Prop :=
  ∀ x ∈ name, (x.isLower = true ∨ x = '-') ∧ x ≠ 'o' ∧ x ≠ 'f'

/-- How the names of the gradient functions are spelled. -/
structure Callable (name : List Char) : Prop where
  spelled : Spelled name
  head : ∃ x rest, name = x :: rest ∧ x.isLower = true
  mem_hyphen : '-' ∈ name
  mem_g : 'g' ∈ name

/-- The names of all gradient functions are spelled so. This is checked of each one. -/
theorem callable_of_mem {function : String} {forms : VendorForms}
    (h : (function, forms) ∈ gradientForms) : Callable function.toList := by
  simp only [gradientForms, List.map_cons, List.map_nil, List.mem_cons, Prod.mk.injEq,
    List.not_mem_nil, or_false] at h
  rcases h with ⟨rfl, -⟩ | ⟨rfl, -⟩ | ⟨rfl, -⟩ | ⟨rfl, -⟩ <;>
    exact ⟨forall_mem_of_all (by decide), ⟨_, _, rfl, by decide⟩,
      by decide, by decide⟩

@[simp] theorem startsCall_nil (cs : List Char) : startsCall [] cs = wordEnds cs := by
  simp [startsCall, startsWithFold, fold]

@[simp] theorem startsCall_cons_nil (x : Char) (name : List Char) :
    startsCall (x :: name) [] = false := by
  simp [startsCall, startsWithFold, fold]

@[simp] theorem startsCall_cons_cons (x c : Char) (name cs : List Char) :
    startsCall (x :: name) (c :: cs) = (x.toLower == c.toLower && startsCall name cs) := by
  simp [startsCall, startsWithFold, fold, Bool.and_assoc]

theorem toLower_of_isBoundary {c : Char} (h : isBoundary c = true) : c.toLower = c := by
  refine toLower_of_isUpper_eq_false (Bool.eq_false_iff.2 fun hupper => ?_)
  have hword : isWordChar c = true := isWordChar_of_isAlpha (isAlpha_iff.2 (.inl hupper))
  simp [isBoundary, hword] at h

/-- Neither a letter in lower case nor a hyphen is a boundary. -/
theorem isBoundary_eq_false {x : Char} (h : x.isLower = true ∨ x = '-') : isBoundary x = false := by
  rcases h with h | rfl
  · simp [isBoundary, isWordChar_of_isAlpha (isAlpha_iff.2 (.inr h))]
  · simp [isBoundary]

theorem toLower_eq_self {x : Char} (h : x.isLower = true ∨ x = '-') : x.toLower = x := by
  rcases h with h | rfl
  · exact toLower_of_isUpper_eq_false (isUpper_eq_false_of_isLower h)
  · rfl

theorem startsCall_of_isBoundary {name : List Char} (hname : Spelled name) (hne : name ≠ [])
    {c : Char} (hc : isBoundary c = true) (cs : List Char) : startsCall name (c :: cs) = false := by
  cases name with
  | nil => exact absurd rfl hne
  | cons x name =>
    obtain ⟨hx, -⟩ := hname x (by simp)
    have hxc : x ≠ c := by
      rintro rfl
      rw [isBoundary_eq_false hx] at hc
      cases hc
    simp [toLower_eq_self hx, toLower_of_isBoundary hc, hxc]

/-- A name neither ends inside a word nor reaches over it if it lacks one of its characters. The
text behind the word may be any. -/
theorem startsCall_word_append {name word : List Char} (hword : ∀ c ∈ word, isWordChar c = true)
    (hlacks : ∃ c ∈ word, ∀ x ∈ name, x.toLower ≠ c.toLower) (after : List Char) :
    startsCall name (word ++ after) = false := by
  induction name generalizing word with
  | nil =>
    obtain ⟨c, hc, -⟩ := hlacks
    cases word with
    | nil => cases hc
    | cons d word => simp [wordEnds, hword d]
  | cons x name ih =>
    obtain ⟨c, hc, hlacks⟩ := hlacks
    cases word with
    | nil => cases hc
    | cons d word =>
      rw [List.cons_append, startsCall_cons_cons]
      rcases List.mem_cons.1 hc with rfl | hc
      · simp [hlacks x (by simp)]
      · rw [ih (fun e he => hword e (by simp [he])) ⟨c, hc, fun y hy => hlacks y (by simp [hy])⟩,
          Bool.and_false]

theorem calls_cons (name : List Char) (boundary : Bool) (c : Char) (cs : List Char) :
    calls name boundary (c :: cs) =
      (boundary && startsCall name (c :: cs) || calls name (isBoundary c) cs) := rfl

theorem calls_eq {name : List Char} (hname : name ≠ []) (boundary : Bool) (cs : List Char) :
    calls name boundary cs = (boundary && startsCall name cs || calls name false cs) := by
  cases cs with
  | nil =>
    cases name with
    | nil => exact absurd rfl hname
    | cons x name => simp [calls]
  | cons c cs => simp [calls_cons]

theorem calls_append_of_calls {name : List Char} (hname : name ≠ []) {cs : List Char}
    (h : calls name false cs = true) (boundary : Bool) (before : List Char) :
    calls name boundary (before ++ cs) = true := by
  induction before generalizing boundary with
  | nil => rw [List.nil_append, calls_eq hname, h, Bool.or_true]
  | cons c before ih => rw [List.cons_append, calls_cons, ih, Bool.or_true]

theorem calls_false_append {name word : List Char} (hword : ∀ x ∈ word, isBoundary x = false)
    (after : List Char) : calls name false (word ++ after) = calls name false after := by
  induction word with
  | nil => rfl
  | cons c word ih =>
    rw [List.cons_append, calls_cons, hword c (by simp), Bool.false_and, Bool.false_or]
    exact ih fun x hx => hword x (by simp [hx])

/-- Inside a text without boundaries only the first place can start a call. Whether it does depends
on what stands in front of the text. -/
theorem calls_append_of_no_boundary {name word : List Char} (hne : word ≠ [])
    (hword : ∀ x ∈ word, isBoundary x = false) (boundary : Bool) (after : List Char) :
    calls name boundary (word ++ after) =
      (boundary && startsCall name (word ++ after) || calls name false after) := by
  cases word with
  | nil => exact absurd rfl hne
  | cons c word =>
    rw [List.cons_append, calls_cons, hword c (by simp),
      calls_false_append fun x hx => hword x (by simp [hx])]

/-- A text without one of the characters of a name does not call the function. -/
theorem exists_mem_of_calls {name : List Char} {x : Char} (hx : x ∈ name) {boundary : Bool}
    {cs : List Char} (h : calls name boundary cs = true) : ∃ c ∈ cs, c.toLower = x.toLower := by
  induction cs generalizing boundary with
  | nil => cases h
  | cons c cs ih =>
    rw [calls_cons, Bool.or_eq_true, Bool.and_eq_true] at h
    rcases h with ⟨-, hstarts⟩ | h
    · rw [startsCall, startsWithFold, Bool.and_eq_true, beq_iff_eq] at hstarts
      have hmem : x.toLower ∈ fold ((c :: cs).take name.length) := by
        rw [← hstarts.1]
        exact List.mem_map_of_mem hx
      obtain ⟨d, hd, hlower⟩ := List.mem_map.1 hmem
      exact ⟨d, List.mem_of_mem_take hd, hlower⟩
    · obtain ⟨d, hd, hlower⟩ := ih h
      exact ⟨d, by simp [hd], hlower⟩

section Replaced

variable {recognize : Recognizer} {image : List Char → List Char}

/-- The image of a match brings no new call of a gradient function. -/
structure Quiet (recognize : Recognizer) (image : List Char → List Char) : Prop where
  starts : ∀ {before c rest n}, recognize (some before) (c :: rest) = some (n + 1) →
    ∀ {name}, Spelled name → ∀ {after},
      startsCall name (image (c :: rest.take n) ++ after) = true →
        startsCall name (c :: rest) = true
  calls : ∀ {before c rest n}, recognize before (c :: rest) = some (n + 1) →
    ∀ {name}, Callable name → ∀ {boundary after},
      calls name boundary (image (c :: rest.take n) ++ after) = true →
        calls name false after = true

/-- Where a call starts after the replacement, one has started before. The place is not the start of
the text, where a match may begin without a character in front. -/
theorem Quiet.startsCall_of_replaced (h : Quiet recognize image) {name : List Char}
    (hname : Spelled name) (before : Char) (cs : List Char)
    (hstarts : startsCall name (replaced recognize image (some before) cs) = true) :
    startsCall name cs = true := by
  induction cs generalizing name before with
  | nil => simpa [replaced, pieces] using hstarts
  | cons c rest ih =>
    by_cases hhit : ∃ n, recognize (some before) (c :: rest) = some (n + 1)
    · obtain ⟨n, hn⟩ := hhit
      rw [replaced_of_some hn] at hstarts
      exact h.starts hn hname hstarts
    · rw [replaced_of_not_some fun n hn => hhit ⟨n, hn⟩] at hstarts
      cases name with
      | nil => simpa [wordEnds] using hstarts
      | cons x name =>
        rw [startsCall_cons_cons, Bool.and_eq_true] at hstarts ⊢
        exact ⟨hstarts.1, ih (fun y hy => hname y (by simp [hy])) c hstarts.2⟩

theorem Quiet.startsCall_of_cons (h : Quiet recognize image) {name : List Char}
    (hname : Callable name) {c : Char} {rest : List Char}
    (hstarts : startsCall name (c :: replaced recognize image (some c) rest) = true) :
    startsCall name (c :: rest) = true := by
  obtain ⟨x, tail, rfl, -⟩ := hname.head
  rw [startsCall_cons_cons, Bool.and_eq_true] at hstarts ⊢
  exact ⟨hstarts.1,
    h.startsCall_of_replaced (fun y hy => hname.spelled y (by simp [hy])) c rest hstarts.2⟩

theorem Callable.ne_nil {name : List Char} (h : Callable name) : name ≠ [] := by
  obtain ⟨x, rest, rfl, -⟩ := h.head
  simp

/-- Replacing matches by quiet images brings no new calls. The induction is on the text that is
left. The name need not be that of the function that is replaced. -/
theorem Quiet.calls_of_replaced (h : Quiet recognize image) {name : List Char}
    (hname : Callable name) (boundary : Bool) (before : Option Char) (cs : List Char)
    (hcalls : Gradient.calls name boundary (replaced recognize image before cs) = true) :
    Gradient.calls name boundary cs = true := by
  induction before, cs using pieces.induct recognize generalizing boundary with
  | case1 before => simpa [replaced, pieces] using hcalls
  | case2 before c rest n hn ih =>
    rw [replaced_of_some hn] at hcalls
    have hrest := ih false (h.calls hn hname hcalls)
    have happend := calls_append_of_calls hname.ne_nil hrest boundary (c :: rest.take n)
    rwa [List.cons_append, List.take_append_drop] at happend
  | case3 before c rest hn ih =>
    rw [replaced_of_not_some hn, calls_cons, Bool.or_eq_true, Bool.and_eq_true] at hcalls
    rw [calls_cons, Bool.or_eq_true, Bool.and_eq_true]
    exact hcalls.imp (And.imp_right fun hstarts => h.startsCall_of_cons hname hstarts) (ih _)

end Replaced

end Gradient

end Sheetsmith
