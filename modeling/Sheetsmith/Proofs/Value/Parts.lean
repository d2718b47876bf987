import Mathlib.Data.List.Basic
import Sheetsmith.Proofs.Text.Rewriting
import Sheetsmith.Proofs.Value.Tokens

namespace Sheetsmith.Value

open Text

/-- A part of a value when its colours are shortened: text that stays as it is, or a colour and what
is written for it. -/
inductive Part where
  | kept (text : List Char)
  | color (token hex : List Char)
deriving DecidableEq

namespace Part

/-- The text of a part before. -/
def old : Part → List Char
  | kept text => text
  | color token _ => token

/-- The text of a part after. -/
def new : Part → List Char
  | kept text => text
  | color _ hex => hex

/-- What becomes of a piece of a value. -/
def ofPiece (read : Color.Reader) : Piece → Except Color.Fault Part
  | .plain c => .ok (kept [c])
  | .hit token => (fun out => if out = token then kept token else color token out) <$>
      shorterColor read token

/-- Puts a part in front of others. Text that stays is one part up to the next colour. -/
def join : Part → List Part → List Part
  | kept text, kept more :: parts => kept (text ++ more) :: parts
  | part, parts => part :: parts

/-- Joining texts that stay changes nothing of what is made of the parts. -/
theorem flatMap_join {f : Part → List Char} (hf : ∀ text, f (kept text) = text) (part : Part)
    (parts : List Part) : (part.join parts).flatMap f = f part ++ parts.flatMap f := by
  cases part with
  | color token hex => cases parts <;> rfl
  | kept text =>
    cases parts with
    | nil => rfl
    | cons next parts =>
      cases next with
      | color token hex => rfl
      | kept more => simp [join, hf]

end Part

theorem Part.flatMap_foldr_join {f : Part → List Char} (hf : ∀ text, f (kept text) = text)
    (parts : List Part) : (parts.foldr join []).flatMap f = parts.flatMap f := by
  induction parts with
  | nil => rfl
  | cons part parts ih => rw [List.foldr_cons, flatMap_join hf, ih, List.flatMap_cons]

/-- The parts of a value. -/
def recolor (read : Color.Reader) (value : List Char) : Except Color.Fault (List Part) :=
  (fun parts => parts.foldr Part.join []) <$>
    (pieces colorToken none value).mapM (Part.ofPiece read)

theorem mapM_map {ε α β γ : Type} (g : β → γ) (f : α → Except ε β) (as : List α) :
    (as.mapM fun a => g <$> f a) = List.map g <$> as.mapM f := by
  induction as with
  | nil => rfl
  | cons a as ih =>
    rw [List.mapM_cons, List.mapM_cons, ih]
    cases f a with
    | error e => rfl
    | ok b => cases as.mapM f <;> rfl

/-- Shortening the colours writes the parts of the value one after another. -/
theorem shortenColors_eq (read : Color.Reader) (value : List Char) :
    shortenColors read value = (fun parts => parts.flatMap Part.new) <$> recolor read value := by
  have himage : replaceAllM colorToken (shorterColor read) value = List.flatten <$>
      (pieces colorToken none value).mapM fun piece => Part.new <$> Part.ofPiece read piece := by
    refine congrArg (fun f => List.flatten <$> List.mapM f _) (funext fun piece => ?_)
    cases piece with
    | plain c => rfl
    | hit token =>
      dsimp only [Part.ofPiece]
      cases shorterColor read token with
      | error e => rfl
      | ok out =>
        refine congrArg Except.ok ?_
        dsimp only
        split
        · next heq => exact heq
        · rfl
  have hflatten : (fun parts : List Part => (parts.foldr Part.join []).flatMap Part.new) =
      fun parts => (parts.map Part.new).flatten :=
    funext fun parts => Part.flatMap_foldr_join (fun _ => rfl) parts
  rw [shortenColors, himage, recolor, Functor.map_map, hflatten, mapM_map, Functor.map_map]

/-- The parts of a value as the search for colours leaves them, behind the character `before`. -/
inductive Recolors (read : Color.Reader) : Option Char → List Part → Prop
  | nil {before : Option Char} : Recolors read before []
  | kept {before : Option Char} {text : List Char} {parts : List Part} (hne : text ≠ [])
    (hnext : ∀ more, parts.head? ≠ some (.kept more)) (hparts : Recolors read text.getLast? parts) :
    Recolors read before (.kept text :: parts)
  | color {before : Option Char} {token hex : List Char} {parts : List Part} (hne : token ≠ [])
    (htoken : IsToken before token (parts.flatMap Part.old))
    (hquote : ∀ quote, IsQuote quote → token.head? ≠ some quote)
    (hread : ∃ answer, read (String.ofList token) = .ok (some answer) ∧ answer.toList = hex)
    (hparts : Recolors read token.getLast? parts) : Recolors read before (.color token hex :: parts)

/-- Text that stays in front of parts, which may start with text that stays. -/
theorem Recolors.join_kept {read : Color.Reader} {before : Option Char} {text : List Char}
    {parts : List Part} (hne : text ≠ []) (h : Recolors read text.getLast? parts) :
    Recolors read before (Part.join (.kept text) parts) := by
  cases h with
  | nil => exact .kept hne (by simp) .nil
  | color htoken' htoken hquote hread hparts =>
    exact .kept hne (by simp) (.color htoken' htoken hquote hread hparts)
  | @kept _ more parts hmore hnext hparts =>
    refine .kept (by simp [hne]) hnext ?_
    rw [List.getLast?_append_of_ne_nil _ hmore]
    exact hparts

/-- Where a token becomes another text, it is no string, and the reader takes it for a colour. A
reader that knows no colour changes no token. -/
theorem shorterColor_eq_ok {read : Color.Reader} {token out : List Char}
    (h : shorterColor read token = .ok out) (hne : out ≠ token) :
    (∀ quote, IsQuote quote → token.head? ≠ some quote) ∧
      ∃ answer, read (String.ofList token) = .ok (some answer) ∧ answer.toList = out := by
  unfold shorterColor at h
  split at h
  · cases h
    exact absurd rfl hne
  · next hquote =>
    rw [not_or] at hquote
    refine ⟨?_, ?_⟩
    · rintro quote (rfl | rfl)
      · exact hquote.1
      · exact hquote.2
    · dsimp only at h
      cases hread : read (String.ofList token) with
      | error e =>
        rw [hread] at h
        cases h
      | ok answer =>
        rw [hread] at h
        cases answer with
        | none =>
          cases h
          exact absurd rfl hne
        | some hex =>
          cases h
          split at hne
          · next hlt => exact ⟨hex, rfl, by rw [if_pos hlt]⟩
          · exact absurd rfl hne

/-- The parts of a value behind the character `before`. The induction is on the pieces of the value.
Nothing is assumed about the reader, as the parts say what it answered. -/
theorem recolors_pieces {read : Color.Reader} {before : Option Char} {cs : List Char}
    {parts : List Part} (h : (pieces colorToken before cs).mapM (Part.ofPiece read) = .ok parts) :
    Recolors read before (parts.foldr Part.join []) ∧
      (parts.foldr Part.join []).flatMap Part.old = cs := by
  induction before, cs using pieces.induct colorToken generalizing parts with
  | case1 before =>
    rw [pieces] at h
    cases h
    exact ⟨.nil, rfl⟩
  | case2 before c rest n hn ih =>
    rw [pieces, hn] at h
    obtain ⟨part, parts, hpart, hparts, rfl⟩ := mapM_cons_eq_ok h
    obtain ⟨ih, hold⟩ := ih hparts
    have hsplit : (c :: rest.take n) ++ rest.drop n = c :: rest := by simp
    rw [List.foldr_cons, Part.flatMap_join (fun _ => rfl), hold]
    cases hout : shorterColor read (c :: rest.take n) with
    | error e =>
      rw [Part.ofPiece, hout] at hpart
      cases hpart
    | ok out =>
      rw [Part.ofPiece, hout] at hpart
      cases hpart
      dsimp only
      split
      · exact ⟨.join_kept (by simp) ih, hsplit⟩
      · next hne =>
        obtain ⟨hquote, hread⟩ := shorterColor_eq_ok hout hne
        refine ⟨.color (by simp) ?_ hquote hread ih, hsplit⟩
        rw [hold]
        exact isToken_of_colorToken hn
  | case3 before c rest hn ih =>
    rw [pieces] at h
    split at h
    · next n hsome => exact absurd hsome (hn n)
    · obtain ⟨part, parts, hpart, hparts, rfl⟩ := mapM_cons_eq_ok h
      cases hpart
      obtain ⟨ih, hold⟩ := ih hparts
      rw [List.foldr_cons, Part.flatMap_join (fun _ => rfl), hold]
      exact ⟨.join_kept (by simp) ih, rfl⟩

end Sheetsmith.Value
