import Sheetsmith.Proofs.Text.Loose
import Sheetsmith.Proofs.Text.Parts
import Sheetsmith.Sheet.Event

namespace Sheetsmith.Event

open Sheetsmith.Text

/-- A text that starts with `@import` behind blanks. -/
def StartsImport (cs : List Char) : Prop :=
  ∃ blanks rest, AllBlank blanks ∧ cs = blanks ++ "@import".toList ++ rest

private theorem isBlank_import : ∀ c ∈ "@import".toList, isBlank c = false :=
  forall_mem_of_all (by decide)

/-- The reader takes a buffer for an import if it starts with `@import` behind blanks. The word is
compared as it is, in lower case, and may go on behind it. -/
theorem isImport_iff (buffer : String) : isImport buffer = true ↔ StartsImport buffer.toList := by
  rw [isImport, List.isPrefixOf_iff_prefix]
  constructor
  · rintro ⟨rest, hrest⟩
    obtain ⟨left, right, hleft, -, heq⟩ := exists_trim buffer.toList
    refine ⟨left, rest ++ right, hleft, ?_⟩
    rw [heq, ← hrest]
    simp
  · rintro ⟨blanks, rest, hblanks, heq⟩
    rw [heq, List.append_assoc, trim_blank_append hblanks]
    obtain ⟨left, right, hleft, hright, hsplit⟩ := exists_trim ("@import".toList ++ rest)
    have hnil : left = [] := by
      cases left with
      | nil => rfl
      | cons c left =>
        obtain rfl : '@' = c := (List.cons.inj hsplit).1
        exact absurd (hleft '@' (by simp)) (by decide)
    rw [hnil, List.nil_append] at hsplit
    have hword : "@import".toList <+: trim ("@import".toList ++ rest) ++ right :=
      ⟨rest, hsplit⟩
    rcases List.prefix_or_prefix_of_prefix hword (List.prefix_append _ right) with h | ⟨more, h⟩
    · exact h
    · -- What is missing of the word would have to be among the blanks cut off.
      cases more with
      | nil => exact ⟨[], by simpa using h.symm⟩
      | cons c more =>
        generalize trim ("@import".toList ++ rest) = kept at h hsplit
        have htail : c :: more ++ rest = right := by
          rw [← h, List.append_assoc] at hsplit
          exact List.append_cancel_left hsplit
        have hc := isBlank_import c (by rw [← h]; simp)
        rw [hright c (by rw [← htail]; simp)] at hc
        cases hc

instance (cs : List Char) : Decidable (StartsImport cs) :=
  decidable_of_iff (isImport (String.ofList cs) = true) (by rw [isImport_iff, String.toList_ofList])

private theorem startsImport_append_cons {cs : List Char} {c : Char} (hc : IsJoint c)
    (rest : List Char) : StartsImport (cs ++ c :: rest) ↔ StartsImport cs := by
  constructor
  · rintro ⟨blanks, more, hblanks, heq⟩
    rcases List.append_eq_append_iff.1 heq with ⟨inner, hword, -⟩ | ⟨inner, hcs, -⟩
    · -- The word would reach over the joint, which is neither blank nor part of it.
      cases inner with
      | nil => exact ⟨blanks, [], hblanks, by simpa using hword.symm⟩
      | cons d inner =>
        have hd : d = c := by
          have h := heq
          rw [hword] at h
          simp only [List.append_assoc, List.cons_append, List.append_cancel_left_eq] at h
          exact (List.cons.inj h).1.symm
        have hmem : c ∈ blanks ++ "@import".toList := by rw [hword, ← hd]; simp
        rcases List.mem_append.1 hmem with hmem | hmem
        · have hblank := hblanks c hmem
          rcases hc with rfl | rfl <;> exact absurd hblank (by decide)
        · rcases hc with rfl | rfl <;> exact absurd hmem (by decide)
    · exact ⟨blanks, inner, hblanks, hcs⟩
  · rintro ⟨blanks, more, hblanks, rfl⟩
    exact ⟨blanks, more ++ c :: rest, hblanks, by simp⟩

private theorem startsImport_concat_blank {cs : List Char} {b : Char} (hb : isBlank b = true) :
    StartsImport (cs ++ [b]) ↔ StartsImport cs := by
  constructor
  · rintro ⟨blanks, more, hblanks, heq⟩
    cases hmore : more.reverse with
    | nil =>
      obtain rfl : more = [] := List.reverse_eq_nil_iff.1 hmore
      have hlast := congrArg List.getLast? heq
      simp at hlast
      rw [hlast] at hb
      exact absurd hb (by decide)
    | cons d init =>
      obtain rfl : more = init.reverse ++ [d] := by
        rw [← List.reverse_reverse more, hmore, List.reverse_cons]
      rw [← List.append_assoc] at heq
      exact ⟨blanks, init.reverse, hblanks, (List.append_inj' heq rfl).1⟩
  · rintro ⟨blanks, more, hblanks, rfl⟩
    exact ⟨blanks, more ++ [b], hblanks, by simp⟩

private theorem startsImport_cons_blank {cs : List Char} {b : Char} (hb : isBlank b = true) :
    StartsImport (b :: cs) ↔ StartsImport cs := by
  constructor
  · rintro ⟨blanks, more, hblanks, heq⟩
    cases blanks with
    | nil =>
      obtain rfl : b = '@' := (List.cons.inj heq).1
      exact absurd hb (by decide)
    | cons c blanks =>
      exact ⟨blanks, more, fun d hd => hblanks d (by simp [hd]), (List.cons.inj heq).2⟩
  · rintro ⟨blanks, more, hblanks, rfl⟩
    refine ⟨b :: blanks, more, ?_, rfl⟩
    intro c hc
    rcases List.mem_cons.1 hc with rfl | hc
    · exact hb
    · exact hblanks c hc

/-- Whether a buffer starts an import is not changed by a blank beside a comma or a colon or at
its end. Inside the word a blank would make a difference, and there is no joint in it. -/
theorem startsImport_insert_iff {before pre : List Char} {b : Char} (hb : isBlank b = true)
    (hloose : LooseEnd before ∨ LooseStart (pre ++ [';'])) :
    StartsImport (before ++ b :: pre) ↔ StartsImport (before ++ pre) := by
  rcases hloose with (rfl | ⟨c, hc, hc'⟩) | (hnil | ⟨c, hc, hc'⟩)
  · exact startsImport_cons_blank hb
  · obtain ⟨init, rfl⟩ : ∃ init, before = init ++ [c] := List.getLast?_eq_some_iff.1 hc'
    simp only [List.append_assoc, List.singleton_append, startsImport_append_cons hc]
  · simp at hnil
  · cases pre with
    | nil =>
      cases hc'
      rcases hc with h | h <;> cases h
    | cons d pre =>
      cases hc'
      have hsplit : before ++ b :: c :: pre = (before ++ [b]) ++ c :: pre := by simp
      rw [hsplit, startsImport_append_cons hc, startsImport_append_cons hc,
        startsImport_concat_blank hb]

/-- What the reader adds to a buffer, inside `depth` open blocks: a semicolon
only behind text that is neither blank, a declaration nor an import, a closing
brace only outside every block and behind no declaration. -/
structure Keeps (depth : Nat) (before : List Char) (c : Char) : Prop where
  notOpen : c ≠ '\x7b'
  semicolon : c = ';' → ':' ∉ before ∧ ¬ StartsImport before ∧ ¬ AllBlank before
  close : c = '\x7d' → depth = 0 ∧ ':' ∉ before

instance (depth : Nat) (before : List Char) (c : Char) : Decidable (Keeps depth before c) :=
  decidable_of_iff (c ≠ '\x7b' ∧
      (c = ';' → ':' ∉ before ∧ ¬ StartsImport before ∧ ¬ AllBlank before) ∧
      (c = '\x7d' → depth = 0 ∧ ':' ∉ before))
    ⟨fun h => ⟨h.1, h.2.1, h.2.2⟩, fun h => ⟨h.notOpen, h.semicolon, h.close⟩⟩

/-- Text that the reader takes into its buffer as it stands. -/
abbrev Absorbed (depth : Nat) : List Char → Prop :=
  Closed fun before c => Keeps depth before c ∧ NoComment before c

/-- What the reader adds to its buffer does not depend on the blanks beside commas and colons, so a
text may be trimmed between them and is read in the same way. -/
theorem ignoresBlanks_keeps (depth : Nat) : IgnoresBlanks (Keeps depth) where
  blank before b hb := by
    refine ⟨?_, ?_, ?_⟩ <;> rintro rfl <;> exact absurd hb (by decide)
  insert before b pre c hb hloose := by
    have hcolon : ':' ∉ before ++ b :: pre ↔ ':' ∉ before ++ pre := by
      have hne : ':' ≠ b := by
        rintro rfl
        exact absurd hb (by decide)
      simp [hne]
    have hblank : AllBlank (before ++ b :: pre) ↔ AllBlank (before ++ pre) := by
      simp [AllBlank, or_imp, forall_and, hb]
    have himport (hc : c = ';') : StartsImport (before ++ b :: pre) ↔ StartsImport (before ++ pre) :=
      startsImport_insert_iff hb (hc ▸ hloose)
    constructor
    · rintro ⟨hopen, hsemicolon, hclose⟩
      refine ⟨hopen, fun hc => ?_, fun hc => ?_⟩
      · rw [← hcolon, ← himport hc, ← hblank]
        exact hsemicolon hc
      · rw [← hcolon]
        exact hclose hc
    · rintro ⟨hopen, hsemicolon, hclose⟩
      refine ⟨hopen, fun hc => ?_, fun hc => ?_⟩
      · rw [hcolon, himport hc, hblank]
        exact hsemicolon hc
      · rw [hcolon]
        exact hclose hc

/-- Whether a text is taken into the buffer as it stands does not depend on the blanks beside its
commas and colons. -/
theorem ignoresBlanks_absorbed (depth : Nat) :
    IgnoresBlanks fun before c => Keeps depth before c ∧ NoComment before c :=
  (ignoresBlanks_keeps depth).and ignoresBlanks_noComment

/-- A block that closes leaves its buffer to the block around it: what was kept inside would have
been kept outside. The other direction fails for a closing brace, which is kept outside every block
only. -/
theorem Keeps.outward {depth : Nat} {before : List Char} {c : Char}
    (h : Keeps (depth + 1) before c) : Keeps depth before c :=
  ⟨h.notOpen, h.semicolon, fun hc => absurd (h.close hc).1 (by simp)⟩

end Sheetsmith.Event
