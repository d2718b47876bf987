import Sheetsmith.Proofs.Optimize.Shorthands
import Sheetsmith.Proofs.Sheet.Document
import Sheetsmith.Proofs.Usage.Sift

namespace Sheetsmith

/-- A reader of colours that answers whatever it is given. -/
def Color.Reader.Total (read : Color.Reader) : Prop :=
  ∀ text, ∃ answer, read text = .ok answer

namespace Value

open Text

/-- A run over a list does not fail where no step does. -/
theorem exists_mapM_eq_ok {ε α β : Type} {f : α → Except ε β} {as : List α}
    (h : ∀ a ∈ as, ∃ b, f a = .ok b) : ∃ bs, as.mapM f = .ok bs := by
  induction as with
  | nil => exact ⟨[], rfl⟩
  | cons a as ih =>
    obtain ⟨b, hb⟩ := h a (by simp)
    obtain ⟨bs, hbs⟩ := ih fun x hx => h x (by simp [hx])
    refine ⟨b :: bs, ?_⟩
    rw [List.mapM_cons, hb, hbs]
    rfl

theorem exists_map_eq_ok {ε α β : Type} (f : α → β) {x : Except ε α} (h : ∃ a, x = .ok a) :
    ∃ b, f <$> x = .ok b := by
  obtain ⟨a, rfl⟩ := h
  exact ⟨f a, rfl⟩

variable {read : Color.Reader} (hread : read.Total)
include hread

/-- A token is shortened without an error: only the reader of colours may raise one. -/
theorem exists_shorterColor_eq_ok (token : List Char) :
    ∃ shorter, shorterColor read token = .ok shorter := by
  unfold shorterColor
  split
  · exact ⟨token, rfl⟩
  · obtain ⟨answer, hanswer⟩ := hread (String.ofList token)
    dsimp only
    rw [hanswer]
    cases answer <;> exact ⟨_, rfl⟩

/-- The colours of a value are shortened without an error. -/
theorem exists_shortenColors_eq_ok (value : List Char) :
    ∃ shorter, shortenColors read value = .ok shorter := by
  unfold shortenColors replaceAllM
  refine exists_map_eq_ok _ (exists_mapM_eq_ok fun piece _ => ?_)
  cases piece with
  | plain c => exact ⟨[c], rfl⟩
  | hit text => exact exists_shorterColor_eq_ok hread text

/-- The words of a value are shortened without an error, whatever the property and the value are. -/
theorem exists_optimizeWords_eq_ok (property value : String) :
    ∃ shorter, optimizeWords read property value = .ok shorter := by
  unfold optimizeWords
  dsimp only
  generalize (if property = "font" ∨ property = "font-weight" then _ else _ : List Char) = cs
  split
  · exact ⟨_, rfl⟩
  · obtain ⟨shorter, hshorter⟩ := exists_shortenColors_eq_ok hread cs
    rw [hshorter]
    exact ⟨_, rfl⟩

end Value

namespace Sheet

section

variable {read : Color.Reader} (hread : read.Total)
include hread

/-- A visit does not fail, whatever the number stands for, if the reader of colours answers. -/
theorem exists_optimizeDeclaration_eq_ok (s : Sheet) (id : NodeId) :
    ∃ t, s.optimizeDeclaration read id = .ok t := by
  unfold optimizeDeclaration
  cases s.declaration? id with
  | none => exact ⟨s, rfl⟩
  | some d =>
    obtain ⟨value, hvalue⟩ := Value.exists_optimizeWords_eq_ok hread d.name d.value
    dsimp only
    rw [hvalue]
    simp only [bind, Except.bind]
    cases (s.modifyDeclaration id fun d => { d with value }).mergeShorthand? id with
    | none => exact ⟨_, rfl⟩
    | some merged =>
      obtain ⟨name, joined, t⟩ := merged
      obtain ⟨shorter, hshorter⟩ := Value.exists_optimizeWords_eq_ok hread name joined
      dsimp only
      rw [hshorter]
      exact ⟨_, rfl⟩

/-- The pass over all declarations does not fail, if the reader of colours answers. No forest is
needed. -/
theorem exists_optimizeDeclarations_eq_ok (s : Sheet) :
    ∃ t, s.optimizeDeclarations read = .ok t := by
  unfold optimizeDeclarations
  generalize s.declarations root = ids
  induction ids generalizing s with
  | nil => exact ⟨s, rfl⟩
  | cons id ids ih =>
    obtain ⟨t, ht⟩ : ∃ t, s.optimizeAttached read id = .ok t := by
      unfold optimizeAttached
      split
      · exact exists_optimizeDeclaration_eq_ok hread s id
      · exact ⟨s, rfl⟩
    rw [List.foldlM_cons, ht]
    exact ih t

end

namespace IsDocument

variable {s : Sheet} (hs : s.IsDocument)
include hs

/-- A pass that is not asked for leaves the sheet as it is. -/
theorem passIf {pass : Sheet → Sheet} (hpass : (pass s).IsDocument) (asked : Bool) :
    (s.passIf asked pass).IsDocument := by
  unfold Sheet.passIf
  split
  · exact hpass
  · exact hs

theorem removeAll (ids : List NodeId) : (s.removeAll ids).IsDocument :=
  ids.foldlRecOn _ hs fun _ ht id _ => ht.remove id

theorem removeComments : s.removeComments.IsDocument :=
  hs.removeAll _

theorem removeHacks : s.removeHacks.IsDocument :=
  hs.removeAll _

theorem lowerNames : s.lowerNames.IsDocument :=
  (s.declarations root).foldlRecOn _ hs fun _ ht id _ => ht.modifyDeclaration id _

theorem pruneGroups : s.pruneGroups.IsDocument := by
  refine (s.groups root).reverse.foldlRecOn _ hs fun t ht id _ => ?_
  unfold pruneGroup
  split
  · exact ht.remove id
  · exact ht

/-- A group that takes another one in leaves a document: the root has no header, so it is not the
group. -/
theorem absorb {id : NodeId} (hid : id ≠ root) (other : NodeId) : (s.absorb id other).IsDocument := by
  unfold Sheet.absorb
  split
  · exact (hs.setSelector hid _).remove other
  · exact hs

theorem absorbFollowing {id : NodeId} (hid : id ≠ root) : (s.absorbFollowing id).IsDocument := by
  unfold Sheet.absorbFollowing
  split
  · refine (s.followingGroups id).foldlRecOn _ hs fun t ht other _ => ?_
    unfold absorbEqual
    split
    · exact ht.absorb hid other
    · exact ht
  · exact hs

theorem mergeGroups : s.mergeGroups.IsDocument :=
  (s.groups root).foldlRecOn _ hs fun _ ht _ hid => ht.absorbFollowing (hs.ne_root_of_mem_groups hid)

theorem cleanWith (table : Usage.Table) : (s.cleanWith table).1.IsDocument :=
  cleanWith_induction hs (fun _ id ht => ht.remove id)
    (fun _ _ hid header ht => ht.setSelector (hs.ne_root_of_mem_groups hid) header) table

theorem clean (strategy : Usage.ScanStrategy) (contents : List String) :
    (s.clean strategy contents).2.IsDocument :=
  hs.cleanWith _

/-- Merging members takes nodes out and does no more to the sheet. -/
theorem mergeShorthand? {id : NodeId} {name value : String} {t : Sheet}
    (h : s.mergeShorthand? id = some (name, value, t)) : t.IsDocument := by
  unfold Sheet.mergeShorthand? at h
  simp only [Option.bind_eq_bind, Option.bind_eq_some_iff, Option.pure_def, Option.some.injEq,
    Prod.mk.injEq] at h
  obtain ⟨d, -, shorthand, -, members, -, -, -, rfl⟩ := h
  exact hs.removeAll _

theorem optimizeDeclaration {id : NodeId} {read : Color.Reader} {t : Sheet}
    (h : s.optimizeDeclaration read id = .ok t) : t.IsDocument := by
  rcases optimizeDeclaration_eq_ok h with ⟨-, rfl⟩ | ⟨d, value, -, -, hvisit⟩
  · exact hs
  · have hworded := hs.modifyDeclaration id fun d => { d with value }
    rcases hvisit with ⟨-, rfl⟩ | ⟨name, joined, merged, value', hmerge, -, rfl⟩
    · exact hworded.modifyDeclaration id _
    · exact ((hworded.mergeShorthand? hmerge).modifyDeclaration id _).modifyDeclaration id _

theorem optimizeDeclarations {read : Color.Reader} {t : Sheet}
    (h : s.optimizeDeclarations read = .ok t) : t.IsDocument := by
  refine foldlM_induction (motive := fun _ t => t.IsDocument) hs (fun id _ u v hu hvisit => ?_) h
  unfold optimizeAttached at hvisit
  split at hvisit
  · exact hu.optimizeDeclaration hvisit
  · cases hvisit
    exact hu

section

variable {read : Color.Reader} (hread : read.Total)
include hread

theorem exists_optimizeDeclarations_eq_ok :
    ∃ t, s.optimizeDeclarations read = .ok t ∧ t.IsDocument := by
  obtain ⟨t, ht⟩ := Sheet.exists_optimizeDeclarations_eq_ok hread s
  exact ⟨t, ht, hs.optimizeDeclarations ht⟩

/-- The passes that shorten a document come to an end with a document. Which passes are asked for
does not matter. -/
theorem exists_shorten_eq_ok (options : OptimizeOptions) :
    ∃ t, s.shorten read options = .ok t ∧ t.IsDocument := by
  have hcomments := hs.passIf hs.removeComments options.removeComments
  have hnames := hcomments.passIf hcomments.lowerNames options.optimize
  have hhacks := hnames.passIf hnames.removeHacks options.removeHacks
  have hgroups {t : Sheet} (ht : t.IsDocument) :
      ((t.passIf (options.optimize && options.removeEmpty) Sheet.pruneGroups).passIf
        options.mergeGroups Sheet.mergeGroups).IsDocument :=
    have hpruned := ht.passIf ht.pruneGroups (options.optimize && options.removeEmpty)
    hpruned.passIf hpruned.mergeGroups options.mergeGroups
  unfold shorten
  dsimp only
  split
  · obtain ⟨t, ht, hvalues⟩ := hhacks.exists_optimizeDeclarations_eq_ok hread
    rw [ht]
    exact ⟨_, rfl, hgroups hvalues⟩
  · exact ⟨_, rfl, hgroups hhacks⟩

end

end IsDocument

end Sheet

end Sheetsmith
