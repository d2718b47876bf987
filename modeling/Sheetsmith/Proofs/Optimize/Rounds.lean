import Sheetsmith.Proofs.Optimize.BoxRounds
import Sheetsmith.Proofs.Optimize.Rules

namespace Sheetsmith

/-- Where no member is declared, none is found. -/
theorem Shorthand.find?_append {α : Type} {name : α → String} {sh : Shorthand} {done : List α}
    (hdone : ∀ a ∈ done, name a ∉ sh.members) {property : String}
    (hproperty : property ∈ sh.members) (rest : List α) :
    (done ++ rest).find? (fun a => name a == property) =
      rest.find? (fun a => name a == property) := by
  rw [List.find?_append, List.find?_eq_none.2, Option.none_or]
  intro a ha
  simp only [beq_iff_eq]
  rintro rfl
  exact hdone a ha hproperty

namespace Sheet

variable {s t : Sheet} {id group : NodeId} {d : Declaration} {sh : Shorthand}

/-- A round takes place in a rule that declares all members. Which declarations of the rule these
are is not said. -/
theorem Completes.mem_names {members : List NodeId} (h : s.Completes id sh members)
    (hparent : s.parent? id = some group) :
    ∀ member ∈ sh.members, member ∈ (s.declarationsIn group).map (·.name) := by
  intro member hmember
  obtain ⟨i, -, hfirst⟩ := h.exists_member hmember
  rw [firstNamed?_eq hparent] at hfirst
  obtain ⟨p, hp, -⟩ := Option.map_eq_some_iff.1 hfirst
  rw [← map_snd_rule, List.map_map]
  exact List.mem_map.2 ⟨p, List.mem_of_find?_eq_some hp, by simpa using List.find?_some hp⟩

namespace Completes

variable {members : List NodeId} {done rest : List (NodeId × Declaration)}
  (h : s.Completes id sh members) (hs : s.IsForest)
  (hrule : s.rule group = done ++ (id, d) :: rest) (hdone : ∀ p ∈ done, p.2.name ∉ sh.members)
include h hs hrule hdone

/-- The declarations that a round takes out of the rule, where no member is declared in front of the
visited one: the first one of every other member. -/
theorem mem_gone_iff {p : NodeId × Declaration} (hp : p ∈ rest) :
    p.1 ∈ members.filter (· != id) ↔
      ∃ property ∈ sh.members.erase d.name, rest.find? (·.2.name == property) = some p := by
  have hparent := hs.parent?_of_mem_children
    (mem_rule_iff.1 (hrule ▸ List.mem_append_right done List.mem_cons_self)).1
  have hnodup := hs.nodup_rule group
  have hmembers := (Shorthand.wellFormed_of_mem h.mem_all).nodup
  have hmem : p ∈ s.rule group := by
    rw [hrule]
    simp [hp]
  have hne : p.1 ≠ id := by
    rw [hrule, List.map_append, List.map_cons] at hnodup
    have hmem := List.mem_map_of_mem (f := Prod.fst) hp
    rintro heq
    rw [heq] at hmem
    exact (List.nodup_cons.1 (List.nodup_append.1 hnodup).2.1).1 hmem
  have hfirst (property : String) (hproperty : property ∈ sh.members) :
      s.firstNamed? id property = some p.1 ↔
        ((id, d) :: rest).find? (·.2.name == property) = some p := by
    rw [firstNamed?_eq hparent, ← Shorthand.find?_append hdone hproperty ((id, d) :: rest), ← hrule,
      Option.map_eq_some_iff]
    constructor
    · rintro ⟨q, hq, heq⟩
      have hq' := (mem_rule_iff.1 (List.mem_of_find?_eq_some hq)).2
      have hp' := (mem_rule_iff.1 hmem).2
      rw [heq, hp'] at hq'
      rw [hq]
      exact congrArg some (Prod.ext heq (Option.some.inj hq').symm)
    · exact fun hfind => ⟨p, hfind, rfl⟩
  constructor
  · intro hgone
    obtain ⟨property, hproperty, hfind⟩ := h.exists_property (List.mem_filter.1 hgone).1
    rw [hfirst property hproperty] at hfind
    by_cases heq : d.name = property
    · rw [List.find?_cons_of_pos (by simpa using heq)] at hfind
      exact absurd (congrArg Prod.fst (Option.some.inj hfind)).symm hne
    · rw [List.find?_cons_of_neg (by simpa using heq)] at hfind
      exact ⟨property, (List.mem_erase_of_ne (Ne.symm heq)).2 hproperty, hfind⟩
  · rintro ⟨property, hproperty, hfind⟩
    obtain ⟨hother, hproperty⟩ := hmembers.mem_erase_iff.1 hproperty
    obtain ⟨i, hi, hfirst'⟩ := h.exists_member hproperty
    have hfind' := (hfirst property hproperty).2
      (by rw [List.find?_cons_of_neg (by simpa using Ne.symm hother), hfind])
    rw [hfirst'] at hfind'
    obtain rfl := Option.some.inj hfind'
    exact List.mem_filter.2 ⟨hi, by simpa using hne⟩

/-- The rule after a round: what was in front stays, the visited declaration has changed, and behind
it the first ones of the other members are missing. -/
theorem rule_eq {d' : Declaration} (htrims : Trims s t id (members.filter (· != id)))
    (hd' : t.declaration? id = some d') :
    t.rule group = done ++ (id, d') :: rest.filter (·.1 ∉ members.filter (· != id)) ∧
      (rest.filter (·.1 ∉ members.filter (· != id))).map (·.2) =
        withoutFirst (sh.members.erase d.name) (rest.map (·.2)) := by
  have hnodup := hs.nodup_rule group
  rw [hrule, List.map_append, List.map_cons] at hnodup
  have hmembers := (Shorthand.wellFormed_of_mem h.mem_all).nodup
  constructor
  · have hfront : done.filter (·.1 ∉ members.filter (· != id)) = done := by
      refine List.filter_eq_self.2 fun p hp => ?_
      simp only [decide_eq_true_eq]
      intro hmem
      obtain ⟨property, hproperty, hfirst⟩ := h.exists_property (List.mem_filter.1 hmem).1
      obtain ⟨-, e, he, rfl⟩ := firstNamed?_eq_some hfirst
      have hp' := (mem_rule_iff.1 (hrule ▸ List.mem_append_left _ hp)).2
      rw [hp'] at he
      cases he
      exact hdone p hp hproperty
    rw [htrims.rule_eq hs hrule (by simp) hd', hfront]
  · exact map_snd_filter_first (hmembers.erase _)
      (List.nodup_cons.1 (List.nodup_append.1 hnodup).2.1).2
      fun p hp => h.mem_gone_iff hs hrule hdone hp

end Completes

end Sheet

end Sheetsmith
