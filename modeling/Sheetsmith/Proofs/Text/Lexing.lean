import Sheetsmith.Proofs.Text.Trim
import Sheetsmith.Text.Delimited

namespace Sheetsmith.Text

/-- A character that opens a string. -/
abbrev IsQuote (c : Char) : Prop :=
  c = '"' ∨ c = '\x27'

/-- Text in which no comment opens, every string is closed and every character
outside the strings satisfies `ok`. -/
inductive Lexed (ok : Char → Prop) : List Char → Prop where
  | nil : Lexed ok []
  | char {c : Char} {cs : List Char} (hquote : ¬ IsQuote c) (hok : ok c)
      (hcomment : ¬ (c = '/' ∧ cs.head? = some '*')) (hcs : Lexed ok cs) : Lexed ok (c :: cs)
  | string {quote : Char} {cs body after : List Char} (hquote : IsQuote quote)
      (hclosed : takeQuoted quote quote cs = (body, some after)) (hafter : Lexed ok after) :
      Lexed ok (quote :: cs)

/-- Outside every string, or inside a string that a quote has opened, behind a
character that may hide the next quote. -/
inductive Place where
  | outside
  | inside (quote before : Char)
deriving DecidableEq

/-- The place behind one more character. -/
def Place.next : Place → Char → Place
  | .outside, c => if IsQuote c then .inside c c else .outside
  | .inside quote before, c => if c = quote ∧ before ≠ '\\' then .outside else .inside quote c

/-- The place behind a text. -/
def Place.after (place : Place) (cs : List Char) : Place :=
  cs.foldl Place.next place

@[simp] theorem Place.after_nil (place : Place) : place.after [] = place := rfl

@[simp] theorem Place.after_cons (place : Place) (c : Char) (cs : List Char) :
    place.after (c :: cs) = (place.next c).after cs := rfl

@[simp] theorem Place.after_append (place : Place) (cs ds : List Char) :
    place.after (cs ++ ds) = (place.after cs).after ds :=
  List.foldl_append

/-- Every character outside the strings satisfies `ok` behind the text in front
of it, for the part of a text that follows `before`. -/
def Each (ok : List Char → Char → Prop) : Place → List Char → List Char → Prop
  | _, _, [] => True
  | place, before, c :: cs =>
    (place = .outside → ¬ IsQuote c → ok before c) ∧ Each ok (place.next c) (before ++ [c]) cs

instance Each.decidable {ok : List Char → Char → Prop} [∀ before c, Decidable (ok before c)] :
    ∀ place before cs, Decidable (Each ok place before cs)
  | _, _, [] => inferInstanceAs (Decidable True)
  | place, before, c :: cs =>
    have : Decidable (Each ok (place.next c) (before ++ [c]) cs) := Each.decidable _ _ _
    inferInstanceAs (Decidable ((place = .outside → ¬ IsQuote c → ok before c) ∧ Each ok _ _ _))

/-- All strings are closed, and every character outside them satisfies `ok`
behind the text in front of it. -/
structure Closed (ok : List Char → Char → Prop) (cs : List Char) : Prop where
  place : Place.outside.after cs = .outside
  each : Each ok .outside [] cs

section

variable {ok : List Char → Char → Prop} {place : Place} {before : List Char}

/-- A condition on all characters outside the strings splits at every border of the text; the second
half goes on from the place and the front that the first half leaves. -/
theorem each_append {cs ds : List Char} :
    Each ok place before (cs ++ ds) ↔
      Each ok place before cs ∧ Each ok (place.after cs) (before ++ cs) ds := by
  induction cs generalizing place before with
  | nil => simp [Each]
  | cons c cs ih => simp [Each, ih, and_assoc]

/-- A condition may be replaced by a weaker one, character by character. The implication is asked
behind every front, also behind those that do not occur in the text. -/
theorem Each.mono {ok' : List Char → Char → Prop} (hok : ∀ pre c, ok pre c → ok' pre c)
    {cs : List Char} (h : Each ok place before cs) : Each ok' place before cs := by
  induction cs generalizing place before with
  | nil => trivial
  | cons c cs ih => exact ⟨fun hplace hquote => hok _ _ (h.1 hplace hquote), ih h.2⟩

/-- Two conditions that hold of all characters outside the strings hold together. Both are read from
the same place and behind the same front. -/
theorem Each.and {ok' : List Char → Char → Prop} {cs : List Char} (h : Each ok place before cs)
    (h' : Each ok' place before cs) :
    Each (fun pre c => ok pre c ∧ ok' pre c) place before cs := by
  induction cs generalizing place before with
  | nil => trivial
  | cons c cs ih =>
    exact ⟨fun hplace hquote => ⟨h.1 hplace hquote, h'.1 hplace hquote⟩, ih h.2 h'.2⟩

/-- Of two conditions behind different fronts only what they say at the characters of this text
matters: where they agree at each split of the text, one holds of all of it when the other one does.
-/
theorem each_congr {front : List Char} {cs : List Char}
    (hok : ∀ pre c post, cs = pre ++ c :: post → (ok (before ++ pre) c ↔ ok (front ++ pre) c)) :
    Each ok place before cs ↔ Each ok place front cs := by
  induction cs generalizing place before front with
  | nil => simp [Each]
  | cons c cs ih =>
    have hhead : ok before c ↔ ok front c := by simpa using hok [] c cs rfl
    have htail : Each ok (place.next c) (before ++ [c]) cs ↔ Each ok (place.next c) (front ++ [c]) cs := by
      apply ih
      intro pre d post heq
      have h := hok (c :: pre) d post (by rw [heq]; rfl)
      simpa using h
    simp only [Each, hhead, htail]

end

theorem Closed.and {ok ok' : List Char → Char → Prop} {cs : List Char} (h : Closed ok cs)
    (h' : Closed ok' cs) : Closed (fun pre c => ok pre c ∧ ok' pre c) cs :=
  ⟨h.place, h.each.and h'.each⟩

theorem Closed.mono {ok ok' : List Char → Char → Prop} (hok : ∀ pre c, ok pre c → ok' pre c)
    {cs : List Char} (h : Closed ok cs) : Closed ok' cs :=
  ⟨h.place, h.each.mono hok⟩

theorem closed_nil (ok : List Char → Char → Prop) : Closed ok [] :=
  ⟨rfl, trivial⟩

/-- A character that opens no string may be put behind closed text if the condition holds of it
there. Quotes are left out, since they would open a string. -/
theorem Closed.push {ok : List Char → Char → Prop} {cs : List Char} (h : Closed ok cs) {c : Char}
    (hquote : ¬ IsQuote c) (hc : ok cs c) : Closed ok (cs ++ [c]) := by
  refine ⟨?_, each_append.2 ⟨h.each, ?_⟩⟩
  · simp [h.place, Place.next, hquote]
  · exact ⟨fun _ _ => by simpa using hc, trivial⟩

/-- A string that is closed takes its text up to its own quote. Nothing is asked of the characters
inside it, whatever condition is put, and its closing quote leads out of it. -/
theorem takeQuoted_inside {quote before : Char} {cs body after : List Char}
    (h : takeQuoted quote before cs = (body, some after)) :
    cs = body ++ quote :: after ∧
      (Place.inside quote before).after (body ++ [quote]) = .outside ∧
      ∀ ok front, Each ok (.inside quote before) front (body ++ [quote]) := by
  induction cs generalizing before body with
  | nil => simp [takeQuoted] at h
  | cons c cs ih =>
    rw [takeQuoted] at h
    split at h
    · next hclose =>
      obtain ⟨rfl, hafter⟩ := Prod.mk.inj h
      cases hafter
      obtain ⟨rfl, hbefore⟩ := hclose
      refine ⟨rfl, by simp [Place.next, hbefore], ?_⟩
      intro ok front
      simp [Each]
    · next hopen =>
      obtain ⟨rfl, hafter⟩ := Prod.mk.inj h
      have hrest : takeQuoted quote c cs = ((takeQuoted quote c cs).1, some after) := by
        rw [← hafter]
      obtain ⟨hcs, hplace, heach⟩ := ih hrest
      refine ⟨by rw [List.cons_append, ← hcs], ?_, ?_⟩
      · simpa [Place.next, hopen] using hplace
      · intro ok front
        refine ⟨by simp, ?_⟩
        simpa [Place.next, hopen] using heach ok (front ++ [c])

/-- A string without an end takes all the text that is left, so nothing behind it is read. -/
theorem takeQuoted_unclosed {quote before : Char} {cs body : List Char}
    (h : takeQuoted quote before cs = (body, none)) : cs = body := by
  induction cs generalizing before body with
  | nil =>
    cases h
    rfl
  | cons c cs ih =>
    rw [takeQuoted] at h
    split at h
    · cases h
    · obtain ⟨rfl, hafter⟩ := Prod.mk.inj h
      have hrest : takeQuoted quote c cs = ((takeQuoted quote c cs).1, none) := by rw [← hafter]
      exact congrArg _ (ih hrest)

/-- A string that ends inside a text ends at the same place when more text follows, and the text
behind it is handed on with what follows. Only the place behind the text is assumed, not where the
string ends. -/
theorem takeQuoted_append_of_after {quote before : Char} {cs : List Char}
    (h : (Place.inside quote before).after cs = .outside) :
    ∃ body after, cs = body ++ quote :: after ∧
      ∀ tail, takeQuoted quote before (cs ++ tail) = (body, some (after ++ tail)) := by
  induction cs generalizing before with
  | nil => simp at h
  | cons c cs ih =>
    by_cases hclose : c = quote ∧ before ≠ '\\'
    · exact ⟨[], cs, by simp [hclose.1], fun tail => by simp [takeQuoted, hclose]⟩
    · rw [Place.after_cons, Place.next, if_neg hclose] at h
      obtain ⟨body, after, heq, htake⟩ := ih h
      exact ⟨c :: body, after, by simp [heq], fun tail => by simp [takeQuoted, hclose, htake]⟩

/-- A comment that ends inside a text ends at the same place when more text follows, also when its
star was already read. -/
theorem takeComment?_append {afterStar : Bool} {cs text after : List Char}
    (h : takeComment? afterStar cs = some (text, after)) (tail : List Char) :
    takeComment? afterStar (cs ++ tail) = some (text, after ++ tail) := by
  induction cs generalizing afterStar text with
  | nil => simp [takeComment?] at h
  | cons c cs ih =>
    rw [takeComment?] at h
    rw [List.cons_append, takeComment?]
    split at h
    · next hclose =>
      cases h
      rw [if_pos hclose]
    · next hopen =>
      obtain ⟨⟨text', after'⟩, hrest, heq⟩ := Option.map_eq_some_iff.1 h
      cases heq
      rw [if_neg hopen, ih hrest]
      rfl

/-- A closed string may be put behind closed text. The condition says nothing of the characters
inside a string, so it is not asked of them. -/
theorem Closed.append_string {ok : List Char → Char → Prop} {cs : List Char} (h : Closed ok cs)
    {quote : Char} (hquote : IsQuote quote) {rest body after : List Char}
    (hclosed : takeQuoted quote quote rest = (body, some after)) :
    Closed ok (cs ++ quotedText quote body true) := by
  obtain ⟨-, hplace, heach⟩ := takeQuoted_inside hclosed
  have hnext : Place.outside.next quote = .inside quote quote := by simp [Place.next, hquote]
  have htext : quotedText quote body true = quote :: (body ++ [quote]) := by simp [quotedText]
  rw [htext]
  refine ⟨?_, each_append.2 ⟨h.each, ?_⟩⟩
  · rw [Place.after_append, h.place, Place.after_cons, hnext, hplace]
  · rw [h.place]
    refine ⟨fun _ hnot => absurd hquote hnot, ?_⟩
    rw [hnext]
    exact heach ok _

/-- The comment that no text may open. -/
def NoComment (before : List Char) (c : Char) : Prop :=
  ¬ (before.getLast? = some '/' ∧ c = '*')

/-- Lexed text satisfies the conditions on its characters behind every front with which it forms no
comment. That border is the only thing assumed about the front: what is in it is not looked at. -/
theorem Lexed.each {ok : Char → Prop} {cs : List Char} (h : Lexed ok cs) (before : List Char)
    (hfront : ¬ (before.getLast? = some '/' ∧ cs.head? = some '*')) :
    Place.outside.after cs = .outside ∧
      Each (fun pre c => ok c ∧ NoComment pre c) .outside before cs := by
  induction h generalizing before with
  | nil => exact ⟨rfl, trivial⟩
  | @char c cs hquote hok hcomment hcs ih =>
    obtain ⟨hplace, heach⟩ := ih (before ++ [c]) (by simpa using hcomment)
    refine ⟨by simpa [Place.next, hquote] using hplace, ?_, ?_⟩
    · exact fun _ _ => ⟨hok, by simpa [NoComment] using hfront⟩
    · simpa [Place.next, hquote] using heach
  | @string quote cs body after hquote hclosed hafter ih =>
    obtain ⟨hcs, hplace, heach⟩ := takeQuoted_inside hclosed
    have hsplit : cs = (body ++ [quote]) ++ after := by rw [hcs, List.append_assoc]; rfl
    have hlast : ((before ++ [quote]) ++ (body ++ [quote])).getLast? = some quote := by
      rw [← List.append_assoc, List.getLast?_concat]
    obtain ⟨hrest, heachRest⟩ := ih ((before ++ [quote]) ++ (body ++ [quote])) (by
      rw [hlast]
      rintro ⟨heq, -⟩
      cases heq
      rcases hquote with h | h <;> cases h)
    have hnext : Place.outside.next quote = .inside quote quote := by simp [Place.next, hquote]
    refine ⟨?_, fun _ hnot => absurd hquote hnot, ?_⟩
    · rw [Place.after_cons, hnext, hsplit, Place.after_append, hplace, hrest]
    · rw [hnext, hsplit, each_append, hplace]
      exact ⟨heach _ _, heachRest⟩

/-- Lexed text is closed: it leaves all its strings, and each character outside of them satisfies
the condition and completes no start of a comment. -/
theorem Lexed.closed {ok : Char → Prop} {cs : List Char} (h : Lexed ok cs) :
    Closed (fun pre c => ok c ∧ NoComment pre c) cs := by
  obtain ⟨hplace, heach⟩ := h.each [] (by simp)
  exact ⟨hplace, heach⟩

/-- Text that ends outside of its strings and opens no comment is gone through string by string and
character by character. A string takes in several characters at once, whatever follows the text, so
the induction is on the length. The condition on a character may look at all that is in front. -/
theorem each_induction {ok : List Char → Char → Prop} {motive : List Char → List Char → Prop}
    (nil : ∀ before, motive before [])
    (char : ∀ before c cs, ¬ IsQuote c → ok before c → ¬ (c = '/' ∧ cs.head? = some '*') →
      motive (before ++ [c]) cs → motive before (c :: cs))
    (string : ∀ before quote body after, IsQuote quote →
      (∀ tail, takeQuoted quote quote (body ++ quote :: after ++ tail) =
        (body, some (after ++ tail))) →
      motive (before ++ quotedText quote body true) after →
      motive before (quote :: (body ++ quote :: after)))
    {before cs : List Char} (hplace : Place.outside.after cs = .outside)
    (heach : Each (fun pre c => ok pre c ∧ NoComment pre c) .outside before cs) :
    motive before cs := by
  induction hlength : cs.length using Nat.strongRecOn generalizing before cs with
  | ind n ih =>
    cases cs with
    | nil => exact nil before
    | cons c cs =>
      by_cases hquote : IsQuote c
      · have hnext : Place.outside.next c = .inside c c := by simp [Place.next, hquote]
        rw [Place.after_cons, hnext] at hplace
        obtain ⟨body, after, rfl, htake⟩ := takeQuoted_append_of_after hplace
        obtain ⟨-, hclosed, -⟩ := takeQuoted_inside (htake [])
        have hsplit : c :: (body ++ c :: after) = quotedText c body true ++ after := by
          simp [quotedText]
        have hout : Place.outside.after (quotedText c body true) = .outside := by
          simpa [quotedText, hnext] using hclosed
        have hrest : Place.outside.after after = .outside := by
          rw [← List.singleton_append, ← List.append_assoc, Place.after_append, hclosed] at hplace
          exact hplace
        rw [hsplit, each_append, hout] at heach
        exact string before c body after hquote htake
          (ih after.length (by simp [← hlength]; omega) hrest heach.2 rfl)
      · have hnext : Place.outside.next c = .outside := by simp [Place.next, hquote]
        have hrest := heach.2
        rw [hnext] at hrest
        rw [Place.after_cons, hnext] at hplace
        refine char before c cs hquote (heach.1 rfl hquote).1 ?_
          (ih cs.length (by simp [← hlength]) hplace hrest rfl)
        rintro ⟨rfl, hhead⟩
        cases cs with
        | nil => cases hhead
        | cons d cs =>
          cases hhead
          exact (hrest.1 rfl (by decide)).2 ⟨List.getLast?_concat, rfl⟩

/-- Going through a text string by string and going through it character by character say the same
of it. The first reading follows the reader, the second one can be decided and split at every
border. -/
theorem lexed_iff_closed {ok : Char → Prop} {cs : List Char} :
    Lexed ok cs ↔ Closed (fun pre c => ok c ∧ NoComment pre c) cs := by
  refine ⟨Lexed.closed, fun h => ?_⟩
  refine each_induction (motive := fun _ cs => Lexed ok cs) ?nil ?char ?string h.place h.each
  case nil => exact fun _ => .nil
  case char => exact fun _ _ _ hquote hok hcomment ih => .char hquote hok hcomment ih
  case string =>
    intro _ quote body after hquote htake ih
    have hclosed := htake []
    rw [List.append_nil, List.append_nil] at hclosed
    exact .string hquote hclosed ih

instance (before : List Char) (c : Char) : Decidable (NoComment before c) :=
  inferInstanceAs (Decidable (¬ _))

instance {ok : List Char → Char → Prop} [∀ before c, Decidable (ok before c)] (cs : List Char) :
    Decidable (Closed ok cs) :=
  decidable_of_iff (Place.outside.after cs = .outside ∧ Each ok .outside [] cs)
    ⟨fun h => ⟨h.1, h.2⟩, fun h => ⟨h.place, h.each⟩⟩

instance {ok : Char → Prop} [DecidablePred ok] (cs : List Char) : Decidable (Lexed ok cs) :=
  decidable_of_iff _ lexed_iff_closed.symm

end Sheetsmith.Text
