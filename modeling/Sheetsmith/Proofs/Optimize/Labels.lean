import Sheetsmith.Proofs.Optimize.Incomplete

namespace Sheetsmith

/-- How many complete sets of members there are among some names. -/
def Shorthand.sets (sh : Shorthand) (names : List String) : Nat :=
  ((sh.members.map fun member => names.count member).min?).getD 0

theorem Shorthand.eq_of_name_eq {sh other : Shorthand} (hsh : sh ∈ all) (hother : other ∈ all)
    (h : sh.name = other.name) : sh = other :=
  List.inj_on_of_nodup_map (by decide : (all.map (·.name)).Nodup) hsh hother h

theorem Shorthand.eq_of_mem_members {sh other : Shorthand} (hsh : sh ∈ all) (hother : other ∈ all)
    {member : String} (h : member ∈ sh.members) (h' : member ∈ other.members) : sh = other := by
  have hof := ofMember?_of_mem hsh h
  rw [ofMember?_of_mem hother h'] at hof
  exact (Option.some.inj hof).symm

/-- No shorthand is a member of another one, so rounds do not lead to further rounds. -/
theorem Shorthand.name_not_mem_members {sh other : Shorthand} (hsh : sh ∈ all)
    (hother : other ∈ all) : other.name ∉ sh.members := by
  intro hmem
  have hof := ofMember?_of_mem hsh hmem
  rw [(wellFormed_of_mem hother).not_member] at hof
  cases hof

/-- Where each member is declared `rounds` times more than is left of it, and nothing is left of one
of them, there were `rounds` sets. -/
theorem Shorthand.sets_eq {sh : Shorthand} {names left : List String} {rounds : Nat}
    (hcount : ∀ member ∈ sh.members, left.count member + rounds = names.count member)
    (hmissing : ∃ member ∈ sh.members, member ∉ left) : sh.sets names = rounds := by
  obtain ⟨member, hmember, hleft⟩ := hmissing
  have hmin : (sh.members.map fun member => names.count member).min? = some rounds := by
    rw [List.min?_eq_some_iff]
    constructor
    · refine List.mem_map.2 ⟨member, hmember, ?_⟩
      rw [← hcount member hmember, List.count_eq_zero.2 hleft, Nat.zero_add]
    · intro count hmem
      obtain ⟨other, hother, rfl⟩ := List.mem_map.1 hmem
      have := hcount other hother
      omega
  rw [sets, hmin]
  rfl

namespace Sheet

variable {s t : Sheet} {id group : NodeId} {d : Declaration} {read : Color.Reader}

/-- The names of the declarations of a group with their numbers, in order. -/
def labels (s : Sheet) (group : NodeId) : List (NodeId × String) :=
  (s.rule group).map fun p => (p.1, p.2.name)

theorem map_snd_labels (s : Sheet) (group : NodeId) :
    (s.labels group).map (·.2) = (s.declarationsIn group).map (·.name) := by
  rw [labels, List.map_map, ← map_snd_rule, List.map_map]
  rfl

/-- What becomes of the declarations of a rule when members are merged into shorthands. Each one
keeps its name and its place, or it is a member that takes the name of its shorthand or is taken
out. Every shorthand comes in as often as each of its members goes. -/
structure Merged (old new : List (NodeId × String)) : Prop where
  outcome : ∃ fate : NodeId × String → Option String,
    new = old.filterMap (fun p => (fate p).map (p.1, ·)) ∧
      ∀ p ∈ old, fate p = some p.2 ∨
        ∃ sh ∈ Shorthand.all, p.2 ∈ sh.members ∧ (fate p = none ∨ fate p = some sh.name)
  counts : ∀ sh ∈ Shorthand.all, ∃ rounds,
    (new.map (·.2)).count sh.name = (old.map (·.2)).count sh.name + rounds ∧
      ∀ member ∈ sh.members, (new.map (·.2)).count member + rounds = (old.map (·.2)).count member

namespace Merged

theorem refl (old : List (NodeId × String)) : Merged old old := by
  refine ⟨⟨fun p => some p.2, ?_, fun p _ => .inl rfl⟩, fun sh _ => ⟨0, rfl, fun _ _ => rfl⟩⟩
  exact List.filterMap_some.symm

variable {old now new : List (NodeId × String)} {sh : Shorthand} {gone : List NodeId}

/-- What becomes of the declarations in one more round, which names `id` by the shorthand and takes
out the other members. -/
theorem exists_fate (h : Merged old now) (hsh : sh ∈ Shorthand.all)
    (hnew : new = (now.filter (·.1 ∉ gone)).map fun p => if p.1 = id then (id, sh.name) else p)
    (hmember : ∀ p ∈ now, p.1 = id ∨ p.1 ∈ gone → p.2 ∈ sh.members) :
    ∃ fate : NodeId × String → Option String,
      new = old.filterMap (fun p => (fate p).map (p.1, ·)) ∧
        ∀ p ∈ old, fate p = some p.2 ∨
          ∃ sh ∈ Shorthand.all, p.2 ∈ sh.members ∧ (fate p = none ∨ fate p = some sh.name) := by
  obtain ⟨fate, rfl, hfate⟩ := h.outcome
  -- What has a new fate now was a member and had kept its name.
  have hkept (p : NodeId × String) (hp : p ∈ old) (hchanged : p.1 = id ∨ p.1 ∈ gone)
      {name : String} (hfatep : fate p = some name) : p.2 ∈ sh.members := by
    have hnow : (p.1, name) ∈ old.filterMap (fun p => (fate p).map (p.1, ·)) :=
      List.mem_filterMap.2 ⟨p, hp, by rw [hfatep]; rfl⟩
    have hmem := hmember (p.1, name) hnow hchanged
    rcases hfate p hp with heq | ⟨other, hother, -, heq | heq⟩
    · rw [heq] at hfatep
      cases hfatep
      exact hmem
    · rw [heq] at hfatep
      cases hfatep
    · rw [heq] at hfatep
      cases hfatep
      exact absurd hmem (Shorthand.name_not_mem_members hsh hother)
  refine ⟨fun p => (fate p).bind fun name =>
    if p.1 ∈ gone then none else if p.1 = id then some sh.name else some name, ?_, ?_⟩
  · rw [hnew, List.filter_filterMap, List.map_filterMap]
    refine List.filterMap_congr fun p _ => ?_
    dsimp only
    cases fate p with
    | none => rfl
    | some name =>
      by_cases hgone : p.1 ∈ gone
      · simp [hgone]
      · by_cases hid : p.1 = id <;> simp_all
  · intro p hp
    dsimp only
    cases hfatep : fate p with
    | none =>
      rcases hfate p hp with heq | ⟨other, hother, hmem, -⟩
      · rw [heq] at hfatep
        cases hfatep
      · exact .inr ⟨other, hother, hmem, .inl rfl⟩
    | some name =>
      rw [Option.bind_some]
      split
      · next hgone => exact .inr ⟨sh, hsh, hkept p hp (.inr hgone) hfatep, .inl rfl⟩
      · split
        · next hid => exact .inr ⟨sh, hsh, hkept p hp (.inl hid) hfatep, .inr rfl⟩
        · have hp' := hfate p hp
          rwa [hfatep] at hp'

/-- One more round counts for its shorthand and for no other one. -/
theorem exists_rounds (h : Merged old now) (hsh : sh ∈ Shorthand.all)
    (hperm : (new.map (·.2) ++ sh.members).Perm (sh.name :: now.map (·.2)))
    {other : Shorthand} (hother : other ∈ Shorthand.all) :
    ∃ rounds, (new.map (·.2)).count other.name = (old.map (·.2)).count other.name + rounds ∧
      ∀ member ∈ other.members,
        (new.map (·.2)).count member + rounds = (old.map (·.2)).count member := by
  obtain ⟨rounds, hcount, hcounts⟩ := h.counts other hother
  have hround (name : String) := hperm.count_eq name
  simp only [List.count_append, List.count_cons, beq_iff_eq] at hround
  have hname := hround other.name
  rw [List.count_eq_zero.2 (Shorthand.name_not_mem_members hsh hother)] at hname
  have hne {member : String} (hmem : member ∈ other.members) : sh.name ≠ member := by
    rintro rfl
    exact Shorthand.name_not_mem_members hother hsh hmem
  by_cases heq : sh = other
  · subst heq
    rw [if_pos rfl] at hname
    refine ⟨rounds + 1, by omega, fun member hmem => ?_⟩
    have hmember := hround member
    rw [List.count_eq_one_of_mem (Shorthand.wellFormed_of_mem hsh).nodup hmem,
      if_neg (hne hmem)] at hmember
    have := hcounts member hmem
    omega
  · rw [if_neg fun hsame => heq (Shorthand.eq_of_name_eq hsh hother hsame)] at hname
    refine ⟨rounds, by omega, fun member hmem => ?_⟩
    have hmember := hround member
    have hnot : member ∉ sh.members := fun hmem' =>
      heq (Shorthand.eq_of_mem_members hsh hother hmem' hmem)
    rw [List.count_eq_zero.2 hnot, if_neg (hne hmem)] at hmember
    have := hcounts member hmem
    omega

end Merged

end Sheet

end Sheetsmith
