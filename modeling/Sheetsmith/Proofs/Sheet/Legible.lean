import Sheetsmith.Proofs.Sheet.Inlining
import Sheetsmith.Proofs.Sheet.NormalForm

namespace Sheetsmith

namespace Event

open Sheetsmith.Text

/-- Outlines that are found again, but for the groups without selector parts, when they are written
inside `depth` open blocks. -/
inductive Legible : Nat → List Outline → Prop where
  | nil {depth : Nat} : Legible depth []
  | leaf {depth : Nat} {leaf : Leaf} {os : List Outline} (hleaf : ReadableLeaf depth leaf)
      (hrest : Legible depth os) : Legible depth (.leaf leaf :: os)
  | declaration {depth : Nat} {d : Declaration} {os : List Outline}
      (hdeclaration : ReadableDeclaration depth d) (hrest : Legible depth os) :
      Legible depth (.declaration d :: os)
  | group {depth : Nat} {parts : List String} {inner os : List Outline}
      (hparts : ReadableParts depth parts) (hinner : Legible (depth + 1) inner)
      (hrest : Legible depth os) : Legible depth (.group parts inner :: os)
  | bare {depth : Nat} {inner os : List Outline} (hinner : Legible depth inner)
      (hrest : Legible depth os) : Legible depth (.group [] inner :: os)

/-- Legible outlines are built of readable pieces, and groups without selector parts come on top of
that. -/
theorem composes_legible : Composes Legible :=
  ⟨.nil, .leaf, .declaration, .group⟩

section

variable {depth : Nat}

/-- Text that the reader keeps in a block is kept outside of it too. The converse fails for the rule
`@import`, which is one outside of every block only. -/
theorem absorbed_outward {cs : List Char} (h : Absorbed (depth + 1) cs) : Absorbed depth cs :=
  h.mono fun _ _ hc => ⟨hc.1.outward, hc.2⟩

/-- A leaf that is found again in a block is found again outside of it. -/
theorem readableLeaf_outward {leaf : Leaf} (h : ReadableLeaf (depth + 1) leaf) :
    ReadableLeaf depth leaf := by
  obtain ⟨kind, text⟩ := leaf
  cases kind with
  | comment => exact h
  | importRule =>
    obtain ⟨body, htext, hbody⟩ := h
    exact ⟨body, htext, hbody.start, hbody.trimmed, hbody.colon, absorbed_outward hbody.absorbed⟩

/-- What is legible inside a block is so outside of it. This is what a group without selector parts
needs, whose children are written one level further out. -/
theorem Legible.outward {os : List Outline} (h : Legible (depth + 1) os) : Legible depth os := by
  generalize hinner : depth + 1 = deeper at h
  induction h generalizing depth with
  | nil => exact .nil
  | leaf hleaf hrest ih =>
    subst hinner
    exact .leaf (readableLeaf_outward hleaf) (ih rfl)
  | declaration hd hrest ih =>
    subst hinner
    exact .declaration ⟨hd.name, hd.value, hd.colon, absorbed_outward hd.absorbed⟩ (ih rfl)
  | group hparts hinner' hrest ihinner ihrest =>
    subst hinner
    refine .group ⟨hparts.ne_nil, hparts.ne_blank, hparts.part, absorbed_outward hparts.absorbed⟩
      (ihinner rfl) (ihrest rfl)
  | bare hinner' hrest ihinner ihrest => exact .bare (ihinner hinner) (ihrest hinner)

/-- What is read of legible outlines is readable. The groups without selector parts are gone, and
what was in them stands further out. -/
theorem Legible.readable_inlined {os : List Outline} (h : Legible depth os) :
    Readable depth (Outline.allInlined os) := by
  have happend {depth : Nat} {os os' : List Outline} (h : Readable depth os)
      (h' : Readable depth os') : Readable depth (os ++ os') := by
    induction h with
    | nil => exact h'
    | leaf hleaf _ ih => exact .leaf hleaf (ih h')
    | declaration hd _ ih => exact .declaration hd (ih h')
    | group hparts hinner _ _ ih => exact .group hparts hinner (ih h')
  induction h with
  | nil => exact .nil
  | leaf hleaf _ ih => exact .leaf hleaf ih
  | declaration hd _ ih => exact .declaration hd ih
  | group hparts _ _ ihinner ihrest =>
    have hne := List.isEmpty_eq_false_iff.2 hparts.ne_nil
    rw [Outline.allInlined, Outline.inlined, hne]
    exact .group hparts ihinner ihrest
  | bare _ _ ihinner ihrest => exact happend ihinner ihrest

/-- How the reader takes in a text with a given ending. -/
def ReadsAs : Ending → Nat → List Char → List Event → Prop
  | .silent, _, text, events => AllBlank text ∧ events = []
  | .closed, depth, text, events => Reads depth text events
  | .bare, depth, text, events => ReadsLast depth text events

theorem ReadsLast.append_blanks {text blanks : List Char} {events : List Event}
    (h : ReadsLast depth text events) (hblanks : AllBlank blanks) :
    ReadsLast depth (text ++ blanks) events := by
  intro before tail hbefore htail
  have hhead : (blanks ++ tail).head? ≠ some '*' := by
    cases blanks with
    | nil => exact htail
    | cons b blanks =>
      intro h
      cases h
      exact absurd (hblanks '*' (by simp)) (by decide)
  obtain ⟨reported, buffer, hbuffer, hevents, hscan⟩ := h before (blanks ++ tail) hbefore hhead
  refine ⟨reported, buffer ++ blanks, fun hcolon => ?_, ?_, ?_⟩
  · exact (hbuffer fun hmem => hcolon (by simp [hmem])).append hblanks
  · rwa [declaration?_append_blanks buffer hblanks]
  · rw [List.append_assoc, hscan, scan_blanks depth buffer hblanks]

/-- A text that does not end in a bare declaration is taken in whatever follows. -/
theorem ReadsAs.reads {ending : Ending} {text : List Char} {events : List Event}
    (h : ReadsAs ending depth text events) (hending : ending ≠ .bare) : Reads depth text events := by
  cases ending with
  | silent =>
    obtain ⟨hblank, rfl⟩ := h
    exact reads_blanks depth hblank
  | closed => exact h
  | bare => exact absurd rfl hending

/-- However it ends, a text is taken in when the end of its block follows. -/
theorem ReadsAs.last {ending : Ending} {text : List Char} {events : List Event}
    (h : ReadsAs ending depth text events) : ReadsLast depth text events := by
  by_cases hending : ending = .bare
  · rw [hending] at h
    exact h
  · exact (h.reads hending).last

/-- Two texts behind each other. Behind a declaration without its semicolon nothing may follow, not
even a comment, since the reader would take it for part of the value. -/
theorem ReadsAs.append {first second : Ending} {text text' : List Char}
    {events events' : List Event} (h : ReadsAs first depth text events)
    (h' : ReadsAs second depth text' events') (hguard : first = .bare → second = .silent) :
    ReadsAs (first.then second) depth (text ++ text') (events ++ events') := by
  cases second with
  | silent =>
    obtain ⟨hblank, rfl⟩ := h'
    rw [List.append_nil]
    cases first with
    | silent =>
      obtain ⟨hblank', rfl⟩ := h
      exact ⟨hblank'.append hblank, rfl⟩
    | closed =>
      have hboth := Reads.append h (reads_blanks depth hblank)
      rwa [List.append_nil] at hboth
    | bare => exact ReadsLast.append_blanks h hblank
  | closed => exact (h.reads fun heq => by cases hguard heq).append h'
  | bare => exact (h.reads fun heq => by cases hguard heq).append_last h'

/-- One outline, the gap behind it and the others. Behind a declaration without its semicolon there
must be nothing, which `allGuarded` says of the whole list. -/
theorem ReadsAs.cons {layout : Layout} {o : Outline} {os : List Outline} {gap : String}
    (hgap : AllBlank gap.toList) (hguarded : Outline.allGuarded layout (o :: os) = true)
    (ho : ReadsAs (o.ending layout os.isEmpty) depth (o.text layout os.isEmpty).toList
      (Outline.allEvents layout o.inlined))
    (hos : ReadsAs (Outline.endings layout os) depth (Outline.texts layout gap os).toList
      (Outline.allEvents layout (Outline.allInlined os))) :
    ReadsAs (Outline.endings layout (o :: os)) depth (Outline.texts layout gap (o :: os)).toList
      (Outline.allEvents layout (Outline.allInlined (o :: os))) := by
  have hblank : AllBlank (if os.isEmpty then "" else gap).toList := by
    split
    · simp [AllBlank]
    · exact hgap
  rw [Outline.allGuarded] at hguarded
  simp only [Bool.and_eq_true, Bool.or_eq_true, bne_iff_ne, ne_eq, beq_iff_eq] at hguarded
  have hspaced : ReadsAs (o.ending layout os.isEmpty) depth
      ((o.text layout os.isEmpty).toList ++ (if os.isEmpty then "" else gap).toList)
      (Outline.allEvents layout o.inlined) := by
    have happend := ho.append (show ReadsAs .silent depth _ [] from ⟨hblank, rfl⟩) fun _ => rfl
    rwa [List.append_nil] at happend
  have h := hspaced.append hos fun heq => hguarded.1.1.resolve_left fun hne => hne heq
  rw [Outline.endings, Outline.texts, Outline.allInlined, Outline.allEvents_append,
    String.toList_append, String.toList_append]
  exact h

/-- Legible outlines are read back from their text, but for the groups without selector parts. The
gap between them may be any blank text; a bare declaration must not be followed by anything but
the end of its block. -/
theorem Legible.readsAs {os : List Outline} (h : Legible depth os) (layout : Layout)
    (hguarded : Outline.allGuarded layout os = true) {gap : String} (hgap : AllBlank gap.toList) :
    ReadsAs (Outline.endings layout os) depth (Outline.texts layout gap os).toList
      (Outline.allEvents layout (Outline.allInlined os)) := by
  obtain ⟨comma, front, back, after, ⟨hcomma, hfront, hback, hafter, hblock, hroot⟩, heqs⟩ :=
    layout_blanks layout
  obtain ⟨hcommaEq, hopenEq, hcloseEq⟩ := heqs
  induction h generalizing gap with
  | nil => exact ⟨by simp [Outline.texts, AllBlank], rfl⟩
  | @leaf depth leaf os hleaf hrest ih =>
    have hos : Outline.allGuarded layout os = true := by
      rw [Outline.allGuarded, Bool.and_eq_true] at hguarded
      exact hguarded.2
    refine .cons hgap hguarded ?_ (ih hos hgap)
    rw [Outline.inlined, Outline.allEvents_singleton]
    exact reads_leaf hleaf layout
  | @declaration depth d os hd hrest ih =>
    have hos : Outline.allGuarded layout os = true := by
      rw [Outline.allGuarded, Bool.and_eq_true] at hguarded
      exact hguarded.2
    refine .cons hgap hguarded ?_ (ih hos hgap)
    rw [Outline.ending]
    split
    · next hlast =>
      have h := readsLast_declaration hd
      simpa [Outline.text, hlast, Outline.inlined, Outline.allEvents, Outline.events, ReadsAs] using h
    · next hlast =>
      have h := reads_declaration hd
      simpa [Outline.text, hlast, Outline.inlined, Outline.allEvents, Outline.events, ReadsAs] using h
  | @group depth parts inner os hparts hinner hrest ihinner ihrest =>
    have hne : parts.isEmpty = false := by simpa using hparts.ne_nil
    have hos := hguarded
    rw [Outline.allGuarded, Bool.and_eq_true, Bool.and_eq_true, Outline.guarded] at hos
    refine .cons hgap hguarded ?_ (ihrest hos.2 hgap)
    have h := reads_group hparts (ihinner hos.1.2 hblock).last hcomma hfront hback hafter
    rw [← header_eq hcommaEq] at h
    rw [Outline.ending, hne, Outline.inlined, hne]
    change ReadsAs .closed depth _ (Outline.allEvents layout [_])
    rw [Outline.allEvents_singleton]
    simpa [Outline.text, Outline.events, hne, hcommaEq, hopenEq, hcloseEq,
      String.toList_intercalate, ReadsAs] using h
  | @bare depth inner os hinner hrest ihinner ihrest =>
    have hos := hguarded
    rw [Outline.allGuarded, Bool.and_eq_true, Bool.and_eq_true, Outline.guarded] at hos
    refine .cons hgap hguarded ?_ (ihrest hos.2 hgap)
    have h := ihinner hos.1.2 hroot
    rw [Outline.ending, Outline.inlined, Outline.text]
    exact h

end

/-- Outside every block, legible outlines are what the reader reports of their text, but for the
groups without selector parts. `Legible.readsAs` says the same at any depth. -/
theorem Legible.levels_ofText {os : List Outline} (h : Legible 0 os) {layout : Layout}
    (hguarded : Outline.allGuarded layout os = true) :
    levels (ofText true (Outline.texts layout layout.rootGap os)) 0 = Outline.allInlined os := by
  obtain ⟨-, -, -, -, ⟨-, -, -, -, -, hgap⟩, -⟩ := layout_blanks layout
  rw [(h.readsAs layout hguarded hgap).last.ofText]
  simpa [levels] using (h.readable_inlined.tells layout []).1

end Event

end Sheetsmith
