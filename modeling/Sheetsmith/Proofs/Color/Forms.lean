import Sheetsmith.Proofs.Color.Characters

namespace Sheetsmith.Color

open Text Numeric

section

variable {c : Char} {cs : List Char}

theorem ne_foreign_of_hexDigit? {n : Nat} (h : hexDigit? c = some n) : c ∉ foreign := by
  intro hc
  have hnone : ∀ x ∈ foreign, hexDigit? x = none := forall_mem_of_all (by decide)
  rw [hnone c hc] at h
  cases h

theorem ne_foreign_of_doubledByte? {n : Nat} (h : doubledByte? c = some n) : c ∉ foreign := by
  obtain ⟨m, hm, -⟩ := Option.map_eq_some_iff.1 h
  exact ne_foreign_of_hexDigit? hm

/-- Two characters that are read as a byte are not foreign. -/
theorem ne_foreign_of_pairByte? {d : Char} {n : Nat} (h : pairByte? c d = some n) :
    c ∉ foreign ∧ d ∉ foreign := by
  unfold pairByte? at h
  split at h
  · next hplus =>
    rw [hplus]
    exact ⟨by decide, ne_foreign_of_hexDigit? h⟩
  · obtain ⟨m, hm, h⟩ := Option.bind_eq_some_iff.1 h
    obtain ⟨k, hk, -⟩ := Option.bind_eq_some_iff.1 h
    exact ⟨ne_foreign_of_hexDigit? hm, ne_foreign_of_hexDigit? hk⟩

/-- A hexadecimal colour is bare, with or without an opacity and in both lengths. -/
theorem isBare_of_readHex? {color : Color} (h : readHex? cs = some color) : IsBare cs := by
  unfold readHex? at h
  split at h
  · obtain ⟨r, hr, h⟩ := Option.bind_eq_some_iff.1 h
    obtain ⟨g, hg, h⟩ := Option.bind_eq_some_iff.1 h
    obtain ⟨b, hb, -⟩ := Option.bind_eq_some_iff.1 h
    simp [isBare_cons, isBare_nil, ne_foreign_of_doubledByte? hr, ne_foreign_of_doubledByte? hg,
      ne_foreign_of_doubledByte? hb]
  · obtain ⟨r, hr, h⟩ := Option.bind_eq_some_iff.1 h
    obtain ⟨g, hg, h⟩ := Option.bind_eq_some_iff.1 h
    obtain ⟨b, hb, h⟩ := Option.bind_eq_some_iff.1 h
    obtain ⟨a, ha, -⟩ := Option.bind_eq_some_iff.1 h
    simp [isBare_cons, isBare_nil, ne_foreign_of_doubledByte? hr, ne_foreign_of_doubledByte? hg,
      ne_foreign_of_doubledByte? hb, ne_foreign_of_doubledByte? ha]
  · obtain ⟨r, hr, h⟩ := Option.bind_eq_some_iff.1 h
    obtain ⟨g, hg, h⟩ := Option.bind_eq_some_iff.1 h
    obtain ⟨b, hb, -⟩ := Option.bind_eq_some_iff.1 h
    simp [isBare_cons, isBare_nil, ne_foreign_of_pairByte? hr, ne_foreign_of_pairByte? hg,
      ne_foreign_of_pairByte? hb]
  · obtain ⟨r, hr, h⟩ := Option.bind_eq_some_iff.1 h
    obtain ⟨g, hg, h⟩ := Option.bind_eq_some_iff.1 h
    obtain ⟨b, hb, h⟩ := Option.bind_eq_some_iff.1 h
    obtain ⟨a, ha, -⟩ := Option.bind_eq_some_iff.1 h
    simp [isBare_cons, isBare_nil, ne_foreign_of_pairByte? hr, ne_foreign_of_pairByte? hg,
      ne_foreign_of_pairByte? hb, ne_foreign_of_pairByte? ha]
  · cases h

/-- The names of the colours in the table are made of letters, and none is empty. This is checked of
each entry, as there is no other reason for it. -/
theorem namedColors_isAlpha : ∀ entry ∈ namedColors,
    fold entry.1.toList ≠ [] ∧ (fold entry.1.toList).all Char.isAlpha = true := by
  decide +kernel

/-- The name of a colour is written by letters. -/
theorem isAlpha_of_named? {name : String} {n : Nat} (h : named? name = some n) :
    name.toList ≠ [] ∧ ∀ c ∈ name.toList, c.isAlpha = true := by
  obtain ⟨entry, hentry, -⟩ := Option.map_eq_some_iff.1 h
  have hsame := List.find?_some hentry
  rw [sameFold, beq_iff_eq] at hsame
  obtain ⟨hne, halpha⟩ := namedColors_isAlpha entry (List.mem_of_find?_eq_some hentry)
  rw [hsame] at hne halpha
  refine ⟨by simpa [fold] using hne, fun c hc => isAlpha_of_toLower ?_⟩
  exact List.all_eq_true.1 halpha _ (List.mem_map_of_mem hc)

end

section

variable {alpha : Float32} {color : Color} {a b c : List Char}

/-- The names of the functions. -/
def callNames : List String :=
  ["rgb", "rgba", "hsl", "hsla", "hwb", "hwba", "hsv", "hsva", "oklab", "oklch"]

theorem sameKind?_eq_some {x y : Option Amount} {u v : Float32} (h : sameKind? x y = some (u, v)) :
    (∃ x', x = some x') ∧ ∃ y', y = some y' := by
  obtain ⟨x', rfl, h⟩ := Option.bind_eq_some_iff.1 h
  obtain ⟨y', rfl, -⟩ := Option.bind_eq_some_iff.1 h
  exact ⟨⟨x', rfl⟩, y', rfl⟩

/-- A colour that is made of three amounts is read of bare texts, whatever is made of them and
whatever a plain number counts. -/
theorem isBare_of_readAmounts {whole : Float32} {make : Amount → Amount → Amount → Option Color}
    (h : ((readAmount? whole a).bind fun x => (readAmount? whole b).bind fun y =>
      (readAmount? whole c).bind fun z => make x y z) = some color) :
    IsBare a ∧ IsBare b ∧ IsBare c := by
  obtain ⟨x, hx, h⟩ := Option.bind_eq_some_iff.1 h
  obtain ⟨y, hy, h⟩ := Option.bind_eq_some_iff.1 h
  obtain ⟨z, hz, -⟩ := Option.bind_eq_some_iff.1 h
  exact ⟨isBare_of_readAmount? hx, isBare_of_readAmount? hy, isBare_of_readAmount? hz⟩

/-- A colour that is made of a hue and two shares is read of bare texts. -/
theorem isBare_of_readHue? {make : Float32 → Float32 → Float32 → Float32 → Color}
    (h : readHue? make a b c alpha = .ok (some color)) : IsBare a ∧ IsBare b ∧ IsBare c := by
  unfold readHue? at h
  cases hhue : readAngle? a with
  | error e =>
    rw [hhue] at h
    cases h
  | ok hue =>
    rw [hhue] at h
    obtain ⟨⟨u, v⟩, hkind, h⟩ := Option.bind_eq_some_iff.1 (Except.ok.inj h)
    obtain ⟨hue, rfl, -⟩ := Option.bind_eq_some_iff.1 h
    obtain ⟨⟨y, hy⟩, z, hz⟩ := sameKind?_eq_some hkind
    exact ⟨isBare_of_readAngle? hhue, isBare_of_readAmount? hy, isBare_of_readAmount? hz⟩

theorem isBare_of_readOklch? (h : readOklch? a b c alpha = .ok (some color)) :
    IsBare a ∧ IsBare b ∧ IsBare c := by
  unfold readOklch? at h
  cases hhue : readAngle? c with
  | error e =>
    rw [hhue] at h
    cases h
  | ok hue =>
    rw [hhue] at h
    obtain ⟨x, hx, h⟩ := Option.bind_eq_some_iff.1 (Except.ok.inj h)
    obtain ⟨y, hy, h⟩ := Option.bind_eq_some_iff.1 h
    obtain ⟨hue, rfl, -⟩ := Option.bind_eq_some_iff.1 h
    exact ⟨isBare_of_readAmount? hx, isBare_of_readAmount? hy, isBare_of_readAngle? hhue⟩

/-- Each of the functions reads three bare texts, and its name is one of the ten. -/
theorem isBare_of_readCall? {name : String} (h : readCall? name a b c alpha = .ok (some color)) :
    name ∈ callNames ∧ IsBare a ∧ IsBare b ∧ IsBare c := by
  unfold readCall? at h
  split at h
  · exact ⟨by decide, isBare_of_readAmounts (Except.ok.inj h)⟩
  · exact ⟨by decide, isBare_of_readAmounts (Except.ok.inj h)⟩
  · exact ⟨by decide, isBare_of_readHue? h⟩
  · exact ⟨by decide, isBare_of_readHue? h⟩
  · exact ⟨by decide, isBare_of_readHue? h⟩
  · exact ⟨by decide, isBare_of_readHue? h⟩
  · exact ⟨by decide, isBare_of_readHue? h⟩
  · exact ⟨by decide, isBare_of_readHue? h⟩
  · exact ⟨by decide, isBare_of_readAmounts (Except.ok.inj h)⟩
  · exact ⟨by decide, isBare_of_readOklch? h⟩
  · cases h

/-- A function that is read as a colour has a known name and bare values, the opacity included.
Blanks may stand between the name and the parenthesis. -/
theorem isBare_of_readFunction? {name arguments : List Char}
    (h : readFunction? name arguments = .ok (some color)) :
    folded (String.ofList (trimEnd name)) ∈ callNames ∧ IsBare arguments := by
  have harguments (h : ∀ value ∈ callValues arguments, IsBare value) : IsBare arguments := by
    intro x hx hmem
    have hgap : ∀ x ∈ foreign, (!isValueGap x) = true := forall_mem_of_all (by decide)
    obtain ⟨word, hword, hmem⟩ := exists_run_of_mem (p := (!isValueGap ·)) hmem (hgap x hx)
    exact h word hword x hx hmem
  unfold readFunction? at h
  dsimp only at h
  split at h
  · next hvalues =>
    obtain ⟨hname, ha, hb, hc⟩ := isBare_of_readCall? h
    exact ⟨hname, harguments (by simp [hvalues, ha, hb, hc])⟩
  · next hvalues =>
    split at h
    · next halpha =>
      obtain ⟨hname, ha, hb, hc⟩ := isBare_of_readCall? h
      exact ⟨hname, harguments (by simp [hvalues, ha, hb, hc, isBare_of_readAmount? halpha])⟩
    · cases h
  · cases h

/-- A text that is a colour has no foreign character, unless it is a function. Then its one
parenthesis opens behind a known name, and the values are bare. -/
theorem isBare_of_read? {text : String} (h : read? text = .ok (some color)) :
    IsBare (trim text.toList) ∨
      ∃ name arguments, trim text.toList = name ++ '(' :: (arguments ++ [')']) ∧
        folded (String.ofList (trimEnd name)) ∈ callNames ∧ IsBare arguments := by
  unfold read? at h
  dsimp only at h
  generalize trim text.toList = cs at h ⊢
  split at h
  · next htransparent =>
    rw [sameFold, beq_iff_eq, String.toList_ofList] at htransparent
    exact .inl (isBare_of_fold (htransparent ▸ by decide))
  · split at h
    · next hmark =>
      obtain ⟨rest, rfl⟩ := List.head?_eq_some_iff.1 hmark
      exact .inl (isBare_cons.2 ⟨by decide, isBare_of_readHex? (Except.ok.inj h)⟩)
    · split at h
      · next hcall =>
        obtain ⟨hopen, hlast⟩ := hcall
        obtain ⟨hname, harguments⟩ := isBare_of_readFunction? h
        refine .inr ⟨_, _, ?_, hname, harguments⟩
        have hhead := List.head?_dropWhile_not (· ≠ '(') cs
        have hsplit := List.takeWhile_append_dropWhile (p := (· ≠ '(')) (l := cs)
        cases hdrop : cs.dropWhile (· ≠ '(') with
        | nil =>
          rw [hdrop, List.append_nil] at hsplit
          have hmem : '(' ∈ cs := by simpa using hopen
          rw [← hsplit] at hmem
          exact absurd hmem (not_mem_takeWhile (by decide) cs)
        | cons c rest =>
          rw [hdrop] at hhead hsplit
          obtain rfl : c = '(' := by simpa using hhead
          rw [← hsplit] at hlast
          rcases List.eq_nil_or_concat rest with rfl | ⟨inner, d, rfl⟩
          · rw [List.getLast?_concat] at hlast
            cases hlast
          · rw [List.concat_eq_append, ← List.cons_append, ← List.append_assoc,
              List.getLast?_concat] at hlast
            cases hlast
            rw [List.tail_cons, List.concat_eq_append, List.dropLast_concat]
            rw [List.concat_eq_append] at hsplit
            exact hsplit.symm
      · have h := Except.ok.inj h
        rw [Option.orElse_eq_orElse, Option.orElse_eq_or, Option.or_eq_some_iff] at h
        rcases h with hhex | ⟨-, hnamed⟩
        · exact .inl (isBare_of_readHex? hhex)
        · obtain ⟨n, hn, -⟩ := Option.map_eq_some_iff.1 hnamed
          have hname := (isAlpha_of_named? hn).2
          rw [String.toList_ofList] at hname
          exact .inl (isBare_of_class (by decide) hname)

end

end Sheetsmith.Color
