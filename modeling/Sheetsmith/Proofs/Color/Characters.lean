import Sheetsmith.Color.Read
import Sheetsmith.Proofs.Text.Ascii
import Sheetsmith.Proofs.Text.Runs
import Sheetsmith.Proofs.Text.Trim

namespace Sheetsmith.Color

open Text Numeric

/-- Characters that stand neither in the name of a colour or of a function nor in its values. -/
def foreign : List Char :=
  ['"', '\x27', '\\', '(']

/-- Text without foreign characters. -/
def IsBare (cs : List Char) : Prop :=
  ∀ x ∈ foreign, x ∉ cs

instance (cs : List Char) : Decidable (IsBare cs) :=
  decidable_of_iff ((foreign.all fun x => decide (x ∉ cs)) = true) (by simp [IsBare])

section

variable {c : Char} {cs ds : List Char}

theorem isBare_nil : IsBare [] :=
  fun _ _ => List.not_mem_nil

/-- Text is bare when its first character is not foreign and the rest is bare. -/
theorem isBare_cons : IsBare (c :: cs) ↔ c ∉ foreign ∧ IsBare cs := by
  simp only [IsBare, List.mem_cons, not_or]
  constructor
  · intro h
    exact ⟨fun hc => (h c hc).1 rfl, fun x hx => (h x hx).2⟩
  · rintro ⟨hc, hcs⟩ x hx
    exact ⟨by rintro rfl; exact hc hx, hcs x hx⟩

/-- Two texts in a row are bare when both are. -/
theorem isBare_append : IsBare (cs ++ ds) ↔ IsBare cs ∧ IsBare ds := by
  simp only [IsBare, List.mem_append, not_or]
  exact ⟨fun h => ⟨fun x hx => (h x hx).1, fun x hx => (h x hx).2⟩,
    fun h x hx => ⟨h.1 x hx, h.2 x hx⟩⟩

/-- A text of one class of characters, to which no foreign character belongs. -/
theorem isBare_of_class {p : Char → Bool} (hp : (foreign.all fun x => !p x) = true)
    (h : ∀ c ∈ cs, p c = true) : IsBare cs := by
  intro x hx hmem
  have hpx := List.all_eq_true.1 hp x hx
  rw [h x hmem] at hpx
  cases hpx

/-- Folding letters makes no foreign character and takes none away. -/
theorem isBare_of_fold (h : IsBare (fold cs)) : IsBare cs := by
  intro x hx hmem
  have hlower : ∀ x ∈ foreign, x.toLower = x := forall_mem_of_all (by decide)
  have hfold : x.toLower ∈ fold cs := List.mem_map_of_mem hmem
  rw [hlower x hx] at hfold
  exact h x hx hfold

theorem isBare_of_digits (h : IsBare (cs.dropWhile Char.isDigit)) : IsBare cs := by
  rw [← List.takeWhile_append_dropWhile (p := Char.isDigit) (l := cs), isBare_append]
  exact ⟨isBare_of_class (by decide) (List.all_eq_true.1 List.all_takeWhile), h⟩

theorem isBare_of_takeSign (h : IsBare (takeSign cs).2) : IsBare cs := by
  unfold takeSign at h
  split at h
  · exact isBare_cons.2 ⟨by decide, h⟩
  · exact isBare_cons.2 ⟨by decide, h⟩
  · exact h

/-- The exponent of a number is bare: a sign and digits. -/
theorem isBare_of_readExponent? {n : Int} (h : readExponent? cs = some n) : IsBare cs := by
  unfold readExponent? at h
  split at h
  · exact isBare_nil
  · next c cs =>
    split at h
    · next hc =>
      dsimp only at h
      split at h
      · cases h
      · next hdigits =>
        simp only [Bool.or_eq_true, not_or, Bool.not_eq_true', Bool.not_eq_false,
          List.all_eq_true] at hdigits
        have hletter : IsBare (fold [c]) := by
          rw [fold, List.map_singleton, hc]
          decide
        exact isBare_cons.2 ⟨(isBare_cons.1 (isBare_of_fold hletter)).1,
          isBare_of_takeSign (isBare_of_class (by decide) hdigits.2)⟩
    · cases h

/-- The digits of a number, with its point and its exponent, are bare. -/
theorem isBare_of_readDigits? {negative : Bool} {d : Decimal}
    (h : readDigits? negative cs = some d) : IsBare cs := by
  unfold readDigits? at h
  dsimp only at h
  refine isBare_of_digits ?_
  split at h
  · next rest hpoint =>
    dsimp only at h
    split at h
    · cases h
    · obtain ⟨n, hn, -⟩ := Option.map_eq_some_iff.1 h
      rw [hpoint, isBare_cons]
      exact ⟨by decide, isBare_of_digits (isBare_of_readExponent? hn)⟩
  · dsimp only at h
    split at h
    · cases h
    · obtain ⟨n, hn, -⟩ := Option.map_eq_some_iff.1 h
      exact isBare_of_readExponent? hn

/-- A number is bare in every form in which it is read, the words for what is no number included. -/
theorem isBare_of_readNumber? {n : Number} (h : readNumber? cs = some n) : IsBare cs := by
  refine isBare_of_takeSign ?_
  unfold readNumber? at h
  dsimp only at h
  have hword {word : String} (hword : IsBare word.toList)
      (h : String.ofList (fold (takeSign cs).2) = word) : IsBare (takeSign cs).2 :=
    isBare_of_fold (by rwa [← h, String.toList_ofList] at hword)
  split at h
  · next hinfinite =>
    rw [Bool.or_eq_true] at hinfinite
    rcases hinfinite with hinf | hinf
    · exact hword (by decide) (of_decide_eq_true hinf)
    · exact hword (by decide) (of_decide_eq_true hinf)
  · split at h
    · next hnan => exact hword (by decide) hnan
    · obtain ⟨d, hd, -⟩ := Option.map_eq_some_iff.1 h
      exact isBare_of_readDigits? hd

/-- What is read as a floating-point number is bare. How it is rounded does not matter. -/
theorem isBare_of_readFloat? {y : Float32} (h : readFloat? cs = some y) : IsBare cs := by
  obtain ⟨n, hn, -⟩ := Option.map_eq_some_iff.1 h
  exact isBare_of_readNumber? hn

/-- A number or a percentage is bare, whatever a plain number counts. -/
theorem isBare_of_readAmount? {whole : Float32} {y : Amount} (h : readAmount? whole cs = some y) :
    IsBare cs := by
  unfold readAmount? at h
  split at h
  · next hlast =>
    obtain ⟨z, hz, -⟩ := Option.map_eq_some_iff.1 h
    obtain ⟨front, rfl⟩ := List.getLast?_eq_some_iff.1 hlast
    rw [List.dropLast_concat] at hz
    exact isBare_append.2 ⟨isBare_of_readFloat? hz, by decide⟩
  · obtain ⟨z, hz, -⟩ := Option.map_eq_some_iff.1 h
    exact isBare_of_readFloat? hz

/-- Cutting the last bytes off a text cuts it in two. It is an error where the cut would go through
a character. -/
theorem splitLast?_eq_ok {taken rest tail reversed : List Char} {n : Nat}
    (h : splitLast? taken n reversed = .ok (some (rest, tail))) :
    rest ++ tail = reversed.reverse ++ taken := by
  fun_induction splitLast? taken n reversed with
  | case1 =>
    cases h
    rfl
  | case2 => cases h
  | case3 taken n c reversed hsize ih =>
    rw [ih h]
    simp
  | case4 => cases h

/-- A unit that is found ends the text, in any letter case. -/
theorem stripUnit?_eq_ok {unit : String} {rest : List Char}
    (h : stripUnit? unit cs = .ok (some rest)) :
    ∃ tail, cs = rest ++ tail ∧ fold tail = fold unit.toList := by
  unfold stripUnit? at h
  cases hsplit : splitLast? [] unit.length cs.reverse with
  | error e =>
    rw [hsplit] at h
    cases h
  | ok answer =>
    rw [hsplit] at h
    obtain ⟨⟨front, tail⟩, rfl, hfold⟩ := Option.bind_eq_some_iff.1 (Except.ok.inj h)
    dsimp only at hfold
    split at hfold
    · next hsame =>
      cases hfold
      have hcs := splitLast?_eq_ok hsplit
      rw [List.reverse_reverse, List.append_nil] at hcs
      rw [sameFold, beq_iff_eq, String.toList_ofList] at hsame
      exact ⟨tail, hcs.symm, hsame⟩
    · cases hfold

/-- An angle is bare in any of its units, if the units are. What the factors of the units are does
not matter. -/
theorem isBare_of_readAngleWith? {units : List (String × (Float32 → Float32))}
    (hunits : ∀ unit ∈ units, IsBare (fold unit.1.toList)) {y : Float32}
    (h : readAngleWith? cs units = .ok (some y)) : IsBare cs := by
  induction units with
  | nil => exact isBare_of_readFloat? (Except.ok.inj h)
  | cons unit units ih =>
    rw [readAngleWith?] at h
    cases hstrip : stripUnit? unit.1 cs with
    | error e =>
      rw [hstrip] at h
      cases h
    | ok answer =>
      rw [hstrip] at h
      cases hnumber : answer.bind readFloat? with
      | none =>
        refine ih (fun other hother => hunits other (by simp [hother])) ?_
        dsimp only [bind, Except.bind] at h
        rwa [hnumber] at h
      | some z =>
        obtain ⟨rest, rfl, hrest⟩ := Option.bind_eq_some_iff.1 hnumber
        obtain ⟨tail, rfl, htail⟩ := stripUnit?_eq_ok hstrip
        exact isBare_append.2 ⟨isBare_of_readFloat? hrest,
          isBare_of_fold (htail ▸ hunits unit (by simp))⟩

theorem isBare_of_readAngle? {y : Float32} (h : readAngle? cs = .ok (some y)) : IsBare cs :=
  isBare_of_readAngleWith? (by decide) h

end

end Sheetsmith.Color
