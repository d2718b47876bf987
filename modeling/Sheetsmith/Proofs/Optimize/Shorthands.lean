import Mathlib.Data.List.Forall2
import Sheetsmith.Optimize.Basic
import Sheetsmith.Proofs.Sheet.Preorder

namespace Sheetsmith

theorem forall₂_of_mapM_eq_some {α β : Type} {f : α → Option β} {as : List α} {bs : List β}
    (h : as.mapM f = some bs) : List.Forall₂ (fun a b => f a = some b) as bs := by
  induction as generalizing bs with
  | nil =>
    cases h
    exact .nil
  | cons a as ih =>
    simp only [List.mapM_cons, Option.bind_eq_bind, Option.bind_eq_some_iff, Option.pure_def,
      Option.some.injEq] at h
    obtain ⟨b, hb, rest, hrest, rfl⟩ := h
    exact .cons hb (ih hrest)

/-- What a fold that may fail keeps at each step holds when it comes to its end. The property may
speak of what is still to be done. -/
theorem foldlM_induction {ε α β : Type} {f : β → α → Except ε β} {motive : List α → β → Prop}
    {as : List α} {b c : β} (h : motive as b)
    (hstep : ∀ a as b b', motive (a :: as) b → f b a = .ok b' → motive as b')
    (hrun : as.foldlM f b = .ok c) : motive [] c := by
  induction as generalizing b with
  | nil =>
    cases hrun
    exact h
  | cons a as ih =>
    rw [List.foldlM_cons] at hrun
    cases hvisit : f b a with
    | error e =>
      rw [hvisit] at hrun
      cases hrun
    | ok b' =>
      rw [hvisit] at hrun
      exact ih (hstep a as b b' h hvisit) hrun

namespace Shorthand

/-- What holds of the table of shorthand properties as a whole: a shorthand has several members and
names none of them twice, it is itself no member of anything, and its name is shorter than its
members' names. -/
structure WellFormed (shorthand : Shorthand) : Prop where
  nodup : shorthand.members.Nodup
  two_le : 2 ≤ shorthand.members.length
  named : 0 < shorthand.name.utf8ByteSize
  not_member : ofMember? shorthand.name = none
  shorter : ∀ member ∈ shorthand.members, shorthand.name.utf8ByteSize ≤ member.utf8ByteSize

theorem wellFormed_of_mem {shorthand : Shorthand} (h : shorthand ∈ all) : shorthand.WellFormed := by
  simp only [all, List.mem_cons, List.not_mem_nil, or_false] at h
  rcases h with rfl | rfl | rfl | rfl | rfl | rfl | rfl <;>
    exact ⟨by decide, by decide, by decide, by decide, by decide⟩

/-- The shorthand that is found for a member is in the table and has that member. -/
theorem mem_all_of_ofMember? {property : String} {shorthand : Shorthand}
    (h : ofMember? property = some shorthand) : shorthand ∈ all ∧ property ∈ shorthand.members := by
  refine ⟨List.mem_of_find?_eq_some h, ?_⟩
  simpa using List.find?_some h

end Shorthand

namespace Sheet

variable {s t : Sheet} {id : NodeId}

/-- What is found by a name is a declaration of that name beside the node, or the node itself. The
name is compared letter by letter, in its case. -/
theorem firstNamed?_eq_some {property : String} {member : NodeId}
    (h : s.firstNamed? id property = some member) :
    member ∈ s.family id ∧ ∃ d, s.declaration? member = some d ∧ d.name = property := by
  unfold firstNamed? at h
  refine ⟨List.mem_of_find?_eq_some h, ?_⟩
  have hnamed := List.find?_some h
  obtain ⟨d, hd, hname⟩ := (Option.any_eq_true _ _).1 hnamed
  exact ⟨d, hd, by simpa using hname⟩

/-- The node is a declaration of a member of a shorthand, and `members` are the first declarations
of all members in its group. -/
structure Completes (s : Sheet) (id : NodeId) (shorthand : Shorthand) (members : List NodeId) :
    Prop where
  own : ∃ d, s.declaration? id = some d ∧ Shorthand.ofMember? d.name = some shorthand
  first : List.Forall₂ (fun property member => s.firstNamed? id property = some member)
    shorthand.members members

/-- The members that are found are the first declarations of each, in the order of the table. So a
set with a member missing gives none. -/
theorem members?_eq_some {shorthand : Shorthand} {members : List NodeId}
    (h : s.members? id shorthand = some members) :
    List.Forall₂ (fun property member => s.firstNamed? id property = some member)
      shorthand.members members :=
  forall₂_of_mapM_eq_some h

/-- What a merge into a shorthand is made of: all members are declared in the group, their values
are joined with blanks between them, and all but the visited one are taken out. -/
theorem mergeShorthand?_eq_some {name joined : String}
    (h : s.mergeShorthand? id = some (name, joined, t)) :
    ∃ shorthand members, s.Completes id shorthand members ∧ name = shorthand.name ∧
      joined = " ".intercalate ((members.filterMap s.declaration?).map (·.value)) ∧
      t = s.removeAll (members.filter (· != id)) := by
  unfold mergeShorthand? at h
  simp only [Option.bind_eq_bind, Option.bind_eq_some_iff, Option.pure_def, Option.some.injEq,
    Prod.mk.injEq] at h
  obtain ⟨d, hd, shorthand, hshorthand, members, hmembers, rfl, rfl, rfl⟩ := h
  exact ⟨shorthand, members, ⟨⟨d, hd, hshorthand⟩, members?_eq_some hmembers⟩, rfl, rfl, rfl⟩

namespace Completes

variable {shorthand : Shorthand} {members : List NodeId} (h : s.Completes id shorthand members)
include h

theorem mem_all : shorthand ∈ Shorthand.all := by
  obtain ⟨d, -, hd⟩ := h.own
  exact (Shorthand.mem_all_of_ofMember? hd).1

/-- Each merged declaration is the first one of a member. -/
theorem exists_property {member : NodeId} (hmember : member ∈ members) :
    ∃ property ∈ shorthand.members, s.firstNamed? id property = some member := by
  have hfirst := h.first
  clear h
  generalize shorthand.members = properties at hfirst
  induction hfirst with
  | nil => cases hmember
  | cons hhead _ ih =>
    rcases List.mem_cons.1 hmember with rfl | hmember
    · exact ⟨_, by simp, hhead⟩
    · obtain ⟨property, hproperty, hmember⟩ := ih hmember
      exact ⟨property, by simp [hproperty], hmember⟩

theorem exists_member {property : String} (hproperty : property ∈ shorthand.members) :
    ∃ member ∈ members, s.firstNamed? id property = some member := by
  have hfirst := h.first
  clear h
  generalize shorthand.members = properties at hfirst hproperty
  induction hfirst with
  | nil => cases hproperty
  | cons hhead _ ih =>
    rcases List.mem_cons.1 hproperty with rfl | hproperty
    · exact ⟨_, by simp, hhead⟩
    · obtain ⟨member, hmember, hfirst⟩ := ih hproperty
      exact ⟨member, by simp [hmember], hfirst⟩

theorem mem_family {member : NodeId} (hmember : member ∈ members) : member ∈ s.family id := by
  obtain ⟨property, -, hfirst⟩ := h.exists_property hmember
  exact (firstNamed?_eq_some hfirst).1

/-- The merged declarations have the names of the members, in order. -/
theorem exists_declaration :
    ∃ ds : List Declaration, ds.map (·.name) = shorthand.members ∧
      List.Forall₂ (fun member d => s.declaration? member = some d) members ds := by
  have hfirst := h.first
  clear h
  generalize shorthand.members = properties at hfirst ⊢
  induction hfirst with
  | nil => exact ⟨[], rfl, .nil⟩
  | @cons property member properties members hmember hrest ih =>
    obtain ⟨-, d, hd, rfl⟩ := firstNamed?_eq_some hmember
    obtain ⟨ds, hnames, hds⟩ := ih
    exact ⟨d :: ds, by rw [List.map_cons, hnames], .cons hd hds⟩

end Completes

/-- What one visit does to a declaration: its words are shortened, then its members are merged if
they are complete, and then the lengths of what came out. Where there is no declaration, nothing is
done. -/
theorem optimizeDeclaration_eq_ok {read : Color.Reader}
    (h : s.optimizeDeclaration read id = .ok t) :
    (s.declaration? id = none ∧ t = s) ∨
      ∃ d value, s.declaration? id = some d ∧ Value.optimizeWords read d.name d.value = .ok value ∧
        let worded := s.modifyDeclaration id fun d => { d with value }
        let units (u : Sheet) :=
          u.modifyDeclaration id fun d => { d with value := Value.optimizeUnits d.name d.value }
        (worded.mergeShorthand? id = none ∧ t = units worded) ∨
          ∃ name joined merged value', worded.mergeShorthand? id = some (name, joined, merged) ∧
            Value.optimizeWords read name joined = .ok value' ∧
            t = units (merged.modifyDeclaration id fun _ => ⟨name, value'⟩) := by
  unfold optimizeDeclaration at h
  cases hd : s.declaration? id with
  | none =>
    rw [hd] at h
    cases h
    exact .inl ⟨rfl, rfl⟩
  | some d =>
    rw [hd] at h
    refine .inr ⟨d, ?_⟩
    dsimp only at h
    cases hvalue : Value.optimizeWords read d.name d.value with
    | error e =>
      rw [hvalue] at h
      cases h
    | ok value =>
      rw [hvalue] at h
      simp only [bind, Except.bind] at h
      refine ⟨value, rfl, rfl, ?_⟩
      dsimp only
      cases hmerge : (s.modifyDeclaration id fun d => { d with value }).mergeShorthand? id with
      | none =>
        rw [hmerge] at h
        cases h
        exact .inl ⟨rfl, rfl⟩
      | some merged =>
        obtain ⟨name, joined, merged⟩ := merged
        rw [hmerge] at h
        dsimp only at h
        cases hvalue' : Value.optimizeWords read name joined with
        | error e =>
          rw [hvalue'] at h
          cases h
        | ok value' =>
          rw [hvalue'] at h
          cases h
          exact .inr ⟨name, joined, merged, value', rfl, hvalue', rfl⟩

end Sheet

end Sheetsmith
