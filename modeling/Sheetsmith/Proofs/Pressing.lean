import Sheetsmith.Press
import Sheetsmith.Proofs.Optimize.Passes
import Sheetsmith.Proofs.Vendor.Progress

namespace Sheetsmith

open Sheet Edit Vendor

/-- A document is optimized to its end. The reader of colours has to answer for every text, and
nothing is assumed about the names and values in the sheet. The rounds of vendor forms run dry, so
their limit is never met. -/
theorem Sheet.IsDocument.exists_optimize_eq_ok {s : Sheet} (hs : s.IsDocument)
    {read : Color.Reader} (hread : read.Total) (options : OptimizeOptions) :
    ∃ t u, s.shorten read options = .ok t ∧
      RunsDry (expandAt (.ofText options.vendors)) root 0 t u ∧
      s.optimize read options = .ok (.ok (), u) := by
  obtain ⟨t, hshorten, ht⟩ := hs.exists_shorten_eq_ok hread options
  obtain ⟨u, hrun, hdry⟩ := exists_runsDry_expandAt (.ofText options.vendors) ht
  refine ⟨t, u, hshorten, hdry, ?_⟩
  rw [Runs] at hrun
  rw [optimize, hshorten]
  exact congrArg Except.ok hrun

theorem Sheet.IsDocument.exists_finishSheet_eq_ok {s : Sheet} (hs : s.IsDocument)
    {read : Color.Reader} (hread : read.Total) (options : OptimizeOptions) :
    ∃ css, finishSheet read options s = .ok css := by
  obtain ⟨t, u, -, -, hoptimize⟩ := hs.exists_optimize_eq_ok hread options
  rw [finishSheet, hoptimize]
  exact ⟨_, rfl⟩

/-- What cleaning comes to on files that have a state of their own: the sheet is cleaned by some
contents, and only the writing of the report may fail. What the files answer may depend on
everything that was asked of them before. -/
theorem exists_run_cleanSheet {σ : Type} (files : Files (StateM σ)) (time : String)
    (options : CleanOptions) (s : Sheet) (world : σ) :
    ∃ contents answer after,
      (cleanSheet files time options s).run world =
        ((answer, (s.clean options.strategy contents).2), after) ∧
      ((∃ summary, answer = .ok summary) ∨
        ∃ path content cause before, options.report = some path ∧
          answer = .error (.report path cause) ∧
          (files.write path content).run before = (.error cause, after)) := by
  rcases hpaths : (files.collect options.paths options.extensions).run world with ⟨paths, world'⟩
  rcases htexts : (paths.mapM files.readText?).run world' with ⟨texts, before⟩
  refine ⟨texts.filterMap id, ?_⟩
  rw [cleanSheet, StateT.run_bind, hpaths]
  show ∃ answer after, (paths.mapM files.readText? >>= _).run world' = _ ∧ _
  rw [StateT.run_bind, htexts]
  cases hreport : options.report with
  | none => exact ⟨_, before, rfl, .inl ⟨_, rfl⟩⟩
  | some path =>
    let content := Text.toUtf8 (Usage.report time (s.clean options.strategy (texts.filterMap id)).1.usage)
    show ∃ answer after, (files.write path content >>= _).run before = _ ∧ _
    rw [StateT.run_bind]
    rcases hwrite : (files.write path content).run before with ⟨written, after⟩
    cases written with
    | ok => exact ⟨_, after, rfl, .inl ⟨_, rfl⟩⟩
    | error cause =>
      exact ⟨_, after, rfl, .inr ⟨path, content, cause, before, rfl, rfl, hwrite⟩⟩

/-- A text is pressed to its end. -/
structure PressEnds (read : Color.Reader) (options : OptimizeOptions) (css : String) : Prop where
  /-- No pass fails, whether the sheet was cleaned before or not, and the rounds of vendor
  forms go on until a round has nothing to visit. -/
  optimize : ∀ trim s, (s = parse trim css ∨
      ∃ strategy contents, s = ((parse trim css).clean strategy contents).2) →
    ∃ t u, s.shorten read options = .ok t ∧
      RunsDry (expandAt (.ofText options.vendors)) root 0 t u ∧
      s.optimize read options = .ok (.ok (), u)
  /-- So do the rounds inside the copies of keyframes blocks, in whatever forest. -/
  expandCopy : ∀ s : Sheet, s.IsForest → ∀ vendor copy,
    ∃ t, RunsDry (expandDeclaration (.only vendor) true) copy 0 s t ∧
      Runs (expandCopy vendor copy) s () t
  /-- Only a usage report that cannot be written is an error, and then its cause is that of
  the failed writing, which was the last thing that was done to the files. -/
  press : ∀ {σ : Type} (files : Files (StateM σ)) (time : String) (clean : Option CleanOptions)
      (world : σ),
    let (answer, after) := (press read files time ⟨options, clean⟩ css).run world
    (∃ pressed, answer = .ok pressed) ∨
      ∃ path content cause before, clean.bind (·.report) = some path ∧
        answer = .error (.report path cause) ∧
        (files.write path content).run before = (.error cause, after)

/-- Every text is pressed to its end, whatever is asked for, as long as the reader of colours always
answers. Nothing is assumed about the text, which may be cut short anywhere, about the vendors and
options, or about the files, whose reading and writing may fail. -/
theorem pressEnds {read : Color.Reader} (hread : read.Total) (options : OptimizeOptions)
    (css : String) : PressEnds read options css := by
  refine ⟨?_, ?_, ?_⟩
  · rintro trim s (rfl | ⟨strategy, contents, rfl⟩)
    · exact (isDocument_parse trim css).exists_optimize_eq_ok hread options
    · exact ((isDocument_parse trim css).clean strategy contents).exists_optimize_eq_ok hread options
  · intro s hs vendor copy
    obtain ⟨t, hrun, hdry⟩ := exists_runsDry_expandDeclaration (.only vendor) true copy hs
    exact ⟨t, hdry, hrun⟩
  · intro σ files time clean world
    have hparse := isDocument_parse true css
    cases clean with
    | none =>
      obtain ⟨out, hout⟩ := hparse.exists_finishSheet_eq_ok hread options
      refine .inl ⟨⟨out, none⟩, ?_⟩
      show (finishSheet read options (parse true css)).map _ = _
      rw [hout]
      rfl
    | some clean =>
      obtain ⟨contents, answer, after, hrun, hanswer⟩ :=
        exists_run_cleanSheet files time clean (parse true css) world
      obtain ⟨out, hout⟩ :=
        (hparse.clean clean.strategy contents).exists_finishSheet_eq_ok hread options
      rw [press]
      dsimp only
      rw [StateT.run_bind, hrun]
      rcases hanswer with ⟨summary, rfl⟩ | ⟨path, content, cause, before, hreport, rfl, hwrite⟩
      · refine .inl ⟨⟨out, some summary⟩, ?_⟩
        show (finishSheet read options _).map _ = _
        rw [hout]
        rfl
      · exact .inr ⟨path, content, cause, before, hreport, rfl, hwrite⟩

/-- The reader of colours that finds none where the reading would come to a stop. -/
def Color.steadyHex : Color.Reader := fun text =>
  match Color.opaqueHex text with
  | .ok answer => .ok answer
  | .error _ => .ok none

/-- A reader that says nothing where the reading would come to a stop always answers. -/
theorem Color.total_steadyHex : Color.steadyHex.Total := by
  intro text
  unfold steadyHex
  cases Color.opaqueHex text <;> exact ⟨_, rfl⟩

theorem pressEnds_spinText :
    Color.steadyHex.Total ∧ PressEnds Color.steadyHex .standard
      "@keyframes spin\x7bto\x7btransform:none\x7d\x7da\x7bcolor:white;opacity:0.5\x7d" :=
  ⟨Color.total_steadyHex, pressEnds Color.total_steadyHex .standard _⟩

end Sheetsmith
