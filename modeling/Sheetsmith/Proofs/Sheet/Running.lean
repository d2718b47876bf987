import Sheetsmith.Proofs.Sheet.Growth
import Sheetsmith.Sheet.Walk

namespace Sheetsmith.Edit

/-- The sheet that an edit leaves, also when it stops early. -/
def final {α : Type} (m : Edit α) (s : Sheet) : Sheet :=
  (m.run.run s).2

/-- An edit goes through to its end. -/
def Runs {α : Type} (m : Edit α) (s : Sheet) (a : α) (t : Sheet) : Prop :=
  m.run.run s = (.ok a, t)

/-- Wherever an edit stops, it keeps what holds of the sheet. -/
def Maintains {α : Type} (holds : Sheet → Prop) (m : Edit α) : Prop :=
  ∀ s, holds s → holds (m.final s)

section

variable {α β : Type} {m : Edit α} {f : α → Edit β} {s t u : Sheet} {holds : Sheet → Prop}

/-- One edit behind another: the second one goes on where the first has ended, and is not started
when the first one stopped. The sheet that a stopped edit leaves is kept. -/
theorem run_bind (m : Edit α) (f : α → Edit β) (s : Sheet) :
    (m >>= f).run.run s =
      match m.run.run s with
      | (.ok a, t) => (f a).run.run t
      | (.error e, t) => (.error e, t) := by
  rw [ExceptT.run_bind, StateT.run_bind]
  rcases hm : m.run.run s with ⟨r, t⟩
  cases r <;> rfl

theorem run_get_bind (f : Sheet → Edit β) (s : Sheet) :
    (get >>= f).run.run s = (f s).run.run s :=
  rfl

theorem runs_pure_iff {a b : α} : Runs (pure a) s b t ↔ a = b ∧ s = t := by
  constructor
  · intro h
    cases h
    exact ⟨rfl, rfl⟩
  · rintro ⟨rfl, rfl⟩
    rfl

/-- Two edits in a row run through when the first one does and then the second one. -/
theorem runs_bind_iff {b : β} : Runs (m >>= f) s b u ↔ ∃ a t, Runs m s a t ∧ Runs (f a) t b u := by
  rw [Runs, run_bind]
  constructor
  · intro h
    rcases hm : m.run.run s with ⟨r, t⟩
    rw [hm] at h
    cases r with
    | error e => cases h
    | ok a => exact ⟨a, t, hm, h⟩
  · rintro ⟨a, t, hm, hf⟩
    rw [Runs] at hm
    rw [hm]
    exact hf

theorem runs_get_bind_iff {f : Sheet → Edit β} {b : β} :
    Runs (get >>= f) s b t ↔ Runs (f s) s b t :=
  Iff.rfl

theorem final_get_bind (f : Sheet → Edit β) (s : Sheet) : (get >>= f).final s = (f s).final s :=
  rfl

theorem Runs.final_eq {a : α} (h : Runs m s a t) : m.final s = t := by
  rw [final, h]

theorem runs_forM_nil_iff {f : α → Edit Unit} : Runs (([] : List α).forM f) s () t ↔ s = t := by
  rw [List.forM_eq_forM, List.forM_nil, runs_pure_iff]
  simp

/-- A list of edits runs through when its first one does and then the others. -/
theorem runs_forM_cons_iff {a : α} {as : List α} {f : α → Edit Unit} :
    Runs ((a :: as).forM f) s () u ↔ ∃ t, Runs (f a) s () t ∧ Runs (as.forM f) t () u := by
  rw [List.forM_eq_forM, List.forM_cons, runs_bind_iff]
  constructor
  · rintro ⟨⟨⟩, t, h⟩
    exact ⟨t, h⟩
  · rintro ⟨t, h⟩
    exact ⟨(), t, h⟩

/-- What passes from one edit of a list to the next, told of the edits that are done. The property
may speak of both, so each step can rely on all that was done before. -/
theorem runs_forM_induction {motive : List α → Sheet → Prop} {as : List α} {f : α → Edit Unit}
    (hstep : ∀ done a rest t u, as = done ++ a :: rest → motive done t → Runs (f a) t () u →
      motive (done ++ [a]) u)
    (h : motive [] s) (hrun : Runs (as.forM f) s () t) : motive as t := by
  have hsplit (done rest : List α) (heq : as = done ++ rest) (u : Sheet) (hu : motive done u)
      (hrest : Runs (rest.forM f) u () t) : motive as t := by
    induction rest generalizing done u with
    | nil =>
      obtain rfl := runs_forM_nil_iff.1 hrest
      rwa [heq, List.append_nil]
    | cons a rest ih =>
      obtain ⟨v, hhead, htail⟩ := runs_forM_cons_iff.1 hrest
      refine ih (done ++ [a]) (by simp [heq]) v ?_ htail
      exact hstep done a rest u v heq hu hhead
  exact hsplit [] as rfl s h hrun

theorem maintains_pure (a : α) : Maintains holds (pure a : Edit α) :=
  fun _ h => h

/-- Two edits in a row keep what each of them keeps. The second one may depend on what the first one
found. -/
theorem Maintains.bind (hm : Maintains holds m) (hf : ∀ a, Maintains holds (f a)) :
    Maintains holds (m >>= f) := by
  intro s hs
  have hs' := hm s hs
  rw [final] at hs' ⊢
  rw [run_bind]
  rcases hrun : m.run.run s with ⟨r, t⟩
  rw [hrun] at hs'
  cases r with
  | error e => exact hs'
  | ok a => exact hf a t hs'

/-- To look at the sheet changes nothing. The edit that looks has to keep the property in the sheet
that it has seen, and in no other. -/
theorem maintains_get_bind {f : Sheet → Edit β} (hf : ∀ s, holds s → holds ((f s).final s)) :
    Maintains holds (get >>= f) :=
  fun s hs => hf s hs

/-- A list of edits keeps what each one of them keeps, also when it stops halfway. -/
theorem maintains_forM {as : List α} {f : α → Edit Unit} (hf : ∀ a ∈ as, Maintains holds (f a)) :
    Maintains holds (as.forM f) := by
  induction as with
  | nil => exact maintains_pure ()
  | cons a as ih =>
    rw [List.forM_eq_forM, List.forM_cons]
    exact (hf a (by simp)).bind fun _ => ih fun b hb => hf b (by simp [hb])

/-- The same for edits that hand on a value from one to the next, whatever value they are given. -/
theorem maintains_foldlM {as : List α} {f : β → α → Edit β}
    (hf : ∀ b, ∀ a ∈ as, Maintains holds (f b a)) (b : β) : Maintains holds (as.foldlM f b) := by
  induction as generalizing b with
  | nil => exact maintains_pure b
  | cons a as ih =>
    rw [List.foldlM_cons]
    exact (hf b a (by simp)).bind fun c => ih (fun b' a' ha' => hf b' a' (by simp [ha'])) c

end

/-- A change of the whole sheet either succeeds or leaves the sheet as it was. There is no state in
between. -/
theorem run_attempt (f : Sheet → Except SheetError Sheet) (s : Sheet) :
    (attempt f).run.run s =
      match f s with
      | .ok t => (.ok (), t)
      | .error e => (.error e, s) := by
  have hrun : (attempt f).run.run s =
      (match f s with
        | .ok t => set t
        | .error e => throw e : Edit Unit).run.run s := rfl
  rw [hrun]
  cases f s <;> rfl

/-- A change of the whole sheet keeps what every success keeps. -/
theorem maintains_attempt {holds : Sheet → Prop} {f : Sheet → Except SheetError Sheet}
    (h : ∀ s t, holds s → f s = .ok t → holds t) : Maintains holds (attempt f) := by
  intro s hs
  rw [final, run_attempt]
  cases hf : f s with
  | error e => exact hs
  | ok t => exact h s t hs hf

open Sheet

/-- A new declaration finds its place behind every node that has a parent. For other nodes the edit
stops, and the new declaration is left detached. -/
theorem run_insertDeclarationAfter {s : Sheet} (hs : s.IsForest) (id : NodeId) (name value : String) :
    (insertDeclarationAfter id name value).run.run s =
      match s.parent? id with
      | some parent =>
        (.ok s.size, (s.create (.declaration ⟨name, value⟩)).2.link parent s.size (placeAfter id s.size))
      | none => (.error (.detached id), (s.create (.declaration ⟨name, value⟩)).2) := by
  have hcreate : (create (.declaration ⟨name, value⟩)).run.run s =
      (.ok s.size, (s.create (.declaration ⟨name, value⟩)).2) := rfl
  rw [insertDeclarationAfter, run_bind, hcreate]
  dsimp only
  rw [run_bind, run_attempt, insertAfter, parent?_create]
  cases hparent : s.parent? id with
  | none => rfl
  | some parent =>
    obtain ⟨g, hg⟩ := hs.exists_group_of_parent? hparent
    have hcheck : (s.create (.declaration ⟨name, value⟩)).2.checkGroup parent = .ok () := by
      rw [checkGroup, group?_create, if_neg (Nat.ne_of_lt (hs.parent_lt_size hparent)), hg]
      rfl
    dsimp only
    rw [checkDetached_create hs.root_lt_size, hcheck]
    rfl

/-- A declaration is inserted into a forest as a forest, and nothing that was there changes, whether
it finds its place or not. -/
theorem final_insertDeclarationAfter {n : NodeId} {s : Sheet} (hs : s.IsForest) (hn : n ≤ s.size)
    (id : NodeId) (name value : String) :
    ((insertDeclarationAfter id name value).final s).IsForest ∧
      Grows n s ((insertDeclarationAfter id name value).final s) := by
  have hnode : ∀ g, Node.declaration ⟨name, value⟩ = .group g → g.children = [] := by rintro g ⟨⟩
  have hcreated := hs.create hnode
  have hgrows := Grows.create hn hnode
  rw [final, run_insertDeclarationAfter hs]
  cases hparent : s.parent? id with
  | none => exact ⟨hcreated, hgrows⟩
  | some parent =>
    obtain ⟨g, hg⟩ := hs.exists_group_of_parent? hparent
    have hgroup : (s.group? parent).isSome := by rw [hg]; rfl
    have hgroup' : ((s.create (.declaration ⟨name, value⟩)).2.group? parent).isSome := by
      rwa [group?_create, if_neg (Nat.ne_of_lt (hs.parent_lt_size hparent))]
    refine ⟨hs.create_link hnode hgroup (places_placeAfter id s.size), hgrows.trans ?_⟩
    exact Grows.link hgroup' (by simp) hn (places_placeAfter id s.size)

/-- The one new node behind `id`. -/
structure Inserted (s t : Sheet) (id : NodeId) (d : Declaration) : Prop where
  size : t.size = s.size + 1
  declaration : t.declaration? s.size = some d
  parent : t.parent? s.size = s.parent? id
  sibling : s.size ∈ t.siblings id

/-- When a declaration was inserted, it is the next node, beside the one that it was put behind.
That it was inserted says that the node has a parent. -/
theorem runs_insertDeclarationAfter {s t : Sheet} (hs : s.IsForest) {id new : NodeId}
    {name value : String} (h : Runs (insertDeclarationAfter id name value) s new t) :
    Inserted s t id ⟨name, value⟩ := by
  rw [Runs, run_insertDeclarationAfter hs] at h
  cases hparent : s.parent? id with
  | none =>
    rw [hparent] at h
    cases h
  | some parent =>
    rw [hparent] at h
    cases h
    have hid : id < s.size := lt_size_of_parent? hparent
    have hup : parent < s.size := hs.parent_lt_size hparent
    have hgroup : ((s.create (.declaration ⟨name, value⟩)).2.group? parent).isSome := by
      obtain ⟨g, hg⟩ := hs.exists_group_of_parent? hparent
      rw [group?_create, if_neg (Nat.ne_of_lt hup), hg]
      rfl
    refine ⟨by simp, ?_, ?_, ?_⟩
    · rw [declaration?_eq_some_iff, node?_link, if_neg (Nat.ne_of_gt hup), node?_create, if_pos rfl]
    · rw [parent?_link (by simp), if_pos rfl, hparent]
    · rw [siblings, List.mem_filter, family, parent?_link (by simp), if_neg (Nat.ne_of_lt hid),
        parent?_create, hparent]
      dsimp only
      rw [children_link _ hgroup, if_pos rfl, ((places_placeAfter id s.size).perm _).mem_iff]
      refine ⟨List.mem_cons_self, ?_⟩
      simpa using Nat.ne_of_gt hid

end Sheetsmith.Edit
