import Sheetsmith.Proofs.Optimize.WithoutFirst

namespace Sheetsmith.Shorthand

variable {sh : Shorthand} {side : Fin 4} {d : Declaration}

/-- A rule where all members are declared, and nothing but shorthands in front of the first one. -/
structure Round (sh : Shorthand) (front : List Declaration) (d : Declaration)
    (back : List Declaration) : Prop where
  sets : ∀ e ∈ front ++ d :: back, sh.Sets e
  front : ∀ e ∈ front, e.name = sh.name
  member : d.name ∈ sh.members
  complete : ∀ member ∈ sh.members, member ∈ (d :: back).map (·.name)

namespace Round

variable {front back : List Declaration} (h : sh.Round front d back) (hsh : sh.IsBox)
include h hsh

/-- No member is declared in front of the place of a round. -/
theorem count_front {member : String} (hmember : member ∈ sh.members) :
    (front.map (·.name)).count member = 0 := by
  rw [List.count_eq_zero]
  intro hmem
  obtain ⟨e, he, rfl⟩ := List.mem_map.1 hmem
  exact hsh.not_mem (h.front e he ▸ hmember)

/-- A member whose first declaration comes behind the last shorthand is declared there again, or its
round takes place there. This is what the condition on the order of names is for. -/
theorem two_le_count {shorthand : Declaration} {between behind : List Declaration}
    (hback : back = between ++ shorthand :: behind) (hshorthand : shorthand.name = sh.name)
    (hbehind : sh.name ∉ behind.map (·.name))
    (hsettles : sh.Settles ((front ++ d :: back).map (·.name))) {member : String}
    (hmember : member ∈ sh.members) (hne : member ≠ d.name)
    (hbetween : member ∉ between.map (·.name)) : 2 ≤ (behind.map (·.name)).count member := by
  have hnames : (front ++ d :: back).map (·.name) =
      (front ++ d :: between).map (·.name) ++ sh.name :: behind.map (·.name) := by
    simp [hback, hshorthand]
  have hname : sh.name ≠ member := fun heq => hsh.not_mem (heq ▸ hmember)
  have hcount : ((front ++ d :: back).map (·.name)).count member =
      (behind.map (·.name)).count member := by
    rw [hnames, List.count_append, List.count_cons_of_ne hname, List.map_append, List.count_append,
      h.count_front hsh hmember, List.map_cons, List.count_cons_of_ne (Ne.symm hne),
      List.count_eq_zero.2 hbetween]
    omega
  have hone (other : String) (hother : other ∈ sh.members) :
      1 ≤ ((front ++ d :: back).map (·.name)).count other := by
    rw [List.map_append]
    exact List.count_pos_iff.2 (List.mem_append_right _ (h.complete other hother))
  by_contra hlt
  have hmem : member ∈ behind.map (·.name) := List.count_pos_iff.1 (hcount ▸ hone member hmember)
  unfold Settles at hsettles
  rw [hnames, behind_append_of_not_mem hbehind, ← hnames] at hsettles
  have hless := hsettles member hmember hmem (fun other hother => by
    have := hone other hother
    omega) d.name h.member
  have hd : 1 + (behind.map (·.name)).count d.name ≤
      ((front ++ d :: back).map (·.name)).count d.name := by
    rw [hnames, List.count_append, List.map_append, List.count_append, List.map_cons,
      List.count_cons_self, List.count_cons]
    omega
  omega

/-- Where a shorthand stands behind the merged members, the sides are set by what is behind it. The
member of the side may have been merged from behind it, and then it is declared there again. -/
theorem cascade_eq_of_mem {e : Declaration} (hlast : sh.name ∈ back.map (·.name))
    (hsettles : sh.Settles ((front ++ d :: back).map (·.name))) {member : String}
    (hside : sh.members[side.val]? = some member) :
    sh.cascade side (front ++ e :: withoutFirst (sh.members.erase d.name) back) =
      sh.cascade side (front ++ d :: back) := by
  have hnodup := hsh.nodup.erase d.name
  have hback : ∀ x ∈ back, sh.Sets x := fun x hx => h.sets x (by simp [hx])
  obtain ⟨between, shorthand, behind, left, rfl, hshorthand, hbehind, hleft, hnot, hleft', hcount⟩ :=
    exists_cut hnodup (fun hmem => hsh.not_mem (List.mem_of_mem_erase hmem)) hlast
  have hset : sh.setting side shorthand ≠ none :=
    hsh.setting_ne_none (hback shorthand (by simp)) (.inl hshorthand)
  have hhide (xs ys : List Declaration) : sh.cascade side (xs ++ shorthand :: ys) =
      (sh.cascade side ys).or (sh.setting side shorthand) := by
    obtain ⟨value, hvalue⟩ := Option.ne_none_iff_exists'.1 hset
    rw [cascade_append, cascade_cons, hvalue]
    cases sh.cascade side ys <;> rfl
  have hsame : sh.cascade side (withoutFirst left behind) = sh.cascade side behind := by
    by_cases hmem : member ∈ left
    · have hpos := List.count_pos_iff.2 hmem
      have hmember : member ∈ sh.members.erase d.name := by
        rw [hcount] at hpos
        exact List.count_pos_iff.1 (by omega)
      have htwo : 2 ≤ (behind.map (·.name)).count member := by
        refine h.two_le_count hsh rfl hshorthand hbehind hsettles (List.mem_of_mem_erase hmember)
          ((hsh.nodup.mem_erase_iff.1 hmember).1) (List.count_eq_zero.1 ?_)
        have := List.nodup_iff_count_le_one.1 hnodup member
        rw [hcount] at hpos
        omega
      -- The member is declared again, so a later declaration of it stays.
      have hagain : member ∈ (withoutFirst left behind).map (·.name) := by
        rw [← List.count_pos_iff, count_withoutFirst]
        have := List.nodup_iff_count_le_one.1 hleft' member
        omega
      obtain ⟨again, hmem', rfl⟩ := List.mem_map.1 hagain
      obtain ⟨first, hfirst⟩ := Option.isSome_iff_exists.1 (List.find?_isSome.2
        ⟨again, (withoutFirst_sublist left behind).subset hmem', beq_self_eq_true _⟩ :
          (behind.find? (·.name == again.name)).isSome)
      have hne : sh.cascade side (withoutFirst left behind) ≠ none :=
        hsh.cascade_ne_none (fun x hx => hback x
          (by simp [(withoutFirst_sublist left behind).subset hx])) ⟨again, hmem', .inr hside⟩
      obtain ⟨value, hvalue⟩ := Option.ne_none_iff_exists'.1 hne
      rw [cascade_eq_withoutFirst_or hleft' hnot hside hmem (fun x hx heq =>
        hbehind (heq ▸ List.mem_map_of_mem hx)) hfirst, hvalue]
      rfl
    · refine cascade_withoutFirst_of_not_mem hnot fun other hother => ?_
      rw [hside] at hother
      cases hother
      exact hmem
  have hfront (x : Declaration) (xs ys : List Declaration) :
      front ++ x :: (xs ++ shorthand :: ys) = (front ++ x :: xs) ++ shorthand :: ys := by
    simp
  rw [hleft, hfront, hfront, hhide, hhide, hsame]

/-- Where no shorthand stands behind the merged members, a side is set by the last declaration of
its member, which is either still there or the one that was merged. -/
theorem map_cascade_eq_of_not_mem {α : Type} {key : List Char → α} {e : Declaration}
    (hlast : sh.name ∉ back.map (·.name)) {member : String}
    (hside : sh.members[side.val]? = some member)
    (hkey : ∀ first, (d :: back).find? (·.name == member) = some first →
      (sh.setting side e).map key = (sh.setting side first).map key) :
    (sh.cascade side (front ++ e :: withoutFirst (sh.members.erase d.name) back)).map key =
      (sh.cascade side (front ++ d :: back)).map key := by
  have hmember : member ∈ sh.members := List.mem_of_getElem? hside
  have hname : sh.name ∉ sh.members.erase d.name :=
    fun hmem => hsh.not_mem (List.mem_of_mem_erase hmem)
  have hother : ∀ x ∈ back, x.name ≠ sh.name := by
    rintro x hx heq
    exact hlast (heq ▸ List.mem_map_of_mem hx)
  suffices hor : ((sh.cascade side (withoutFirst (sh.members.erase d.name) back)).or
      (sh.setting side e)).map key = ((sh.cascade side back).or (sh.setting side d)).map key by
    rw [cascade_append, cascade_append, cascade_cons, cascade_cons, Option.map_or, hor,
      ← Option.map_or]
  by_cases heq : member = d.name
  · subst heq
    rw [cascade_withoutFirst_of_not_mem hname, Option.map_or, Option.map_or,
      hkey d (List.find?_cons_of_pos (beq_self_eq_true _))]
    intro other hother'
    rw [hside] at hother'
    cases hother'
    exact fun hmem => (hsh.nodup.mem_erase_iff.1 hmem).1 rfl
  · have hd : sh.setting side d = none := by
      refine setting_eq_none (fun hd => hsh.not_mem (hd ▸ h.member)) ?_
      rw [hside]
      simpa using heq
    have hmem : member ∈ back.map (·.name) :=
      (List.mem_cons.1 (h.complete member hmember)).resolve_left heq
    obtain ⟨x, hx, hxname⟩ := List.mem_map.1 hmem
    obtain ⟨first, hfirst⟩ := Option.isSome_iff_exists.1 (List.find?_isSome.2
      ⟨x, hx, by simpa using hxname⟩ : (back.find? (·.name == member)).isSome)
    rw [cascade_eq_withoutFirst_or (hsh.nodup.erase d.name) hname hside
      ((List.mem_erase_of_ne heq).2 hmember) hother hfirst, hd, Option.or_none, Option.map_or,
      Option.map_or, hkey first (by rw [List.find?_cons_of_neg (by simpa using Ne.symm heq), hfirst])]

/-- Merging the members takes away from no side what it is set to. How settings are compared is
left open. -/
theorem map_cascade_eq {α : Type} {key : List Char → α} {e : Declaration}
    (hsettles : sh.Settles ((front ++ d :: back).map (·.name)))
    (hkey : ∀ member, sh.members[side.val]? = some member →
      ∀ first, (d :: back).find? (·.name == member) = some first →
        (sh.setting side e).map key = (sh.setting side first).map key) :
    (sh.cascade side (front ++ e :: withoutFirst (sh.members.erase d.name) back)).map key =
      (sh.cascade side (front ++ d :: back)).map key := by
  obtain ⟨member, hside⟩ : ∃ member, sh.members[side.val]? = some member :=
    ⟨_, List.getElem?_eq_getElem (by rw [hsh.four]; exact side.isLt)⟩
  by_cases hlast : sh.name ∈ back.map (·.name)
  · rw [h.cascade_eq_of_mem hsh hlast hsettles hside]
  · exact h.map_cascade_eq_of_not_mem hsh hlast hside (hkey member hside)

/-- A round takes one declaration from each member. Whether a side is settled does not matter for
the count. -/
theorem count_merged {e : Declaration} (he : e.name = sh.name) {member : String}
    (hmember : member ∈ sh.members) :
    ((front ++ e :: withoutFirst (sh.members.erase d.name) back).map (·.name)).count member + 1 =
      ((front ++ d :: back).map (·.name)).count member := by
  have hne : e.name ≠ member := fun heq => hsh.not_mem (he ▸ heq ▸ hmember)
  have hperm := perm_withoutFirst (e := e) hsh.nodup h.member front h.complete
  have hcount := hperm.count_eq member
  rwa [List.count_append, List.count_eq_one_of_mem hsh.nodup hmember, List.count_cons_of_ne hne]
    at hcount

/-- After a round the next ones still take place where they have to. Each member has lost one
declaration, and the last shorthand may be the one that was made. -/
theorem settles {e : Declaration} (hsettles : sh.Settles ((front ++ d :: back).map (·.name)))
    (he : e.name = sh.name) :
    sh.Settles ((front ++ e :: withoutFirst (sh.members.erase d.name) back).map (·.name)) := by
  have hname : sh.name ∉ sh.members.erase d.name :=
    fun hmem => hsh.not_mem (List.mem_of_mem_erase hmem)
  have hnodup := hsh.nodup.erase d.name
  intro member hmember hmem hmin other hother
  have hcount := h.count_merged hsh he hmember
  have hcount' := h.count_merged hsh he hother
  have hpos := List.count_pos_iff.2 (mem_of_mem_behind hmem)
  have hne : sh.name ≠ other := fun heq => hsh.not_mem (heq ▸ hother)
  by_cases hlast : sh.name ∈ back.map (·.name)
  · obtain ⟨between, shorthand, behind, left, rfl, hshorthand, hbehind, hleft, hnot, hleft',
      hleftCount⟩ := exists_cut hnodup hname hlast
    have hnames : (front ++ d :: (between ++ shorthand :: behind)).map (·.name) =
        (front ++ d :: between).map (·.name) ++ sh.name :: behind.map (·.name) := by
      simp [hshorthand]
    have hnames' : (front ++ e :: withoutFirst (sh.members.erase d.name)
          (between ++ shorthand :: behind)).map (·.name) =
        (front ++ e :: withoutFirst (sh.members.erase d.name) between).map (·.name) ++
          sh.name :: (withoutFirst left behind).map (·.name) := by
      simp [hleft, hshorthand]
    have hbehind' : sh.name ∉ (withoutFirst left behind).map (·.name) := fun hmem =>
      hbehind (((withoutFirst_sublist left behind).map _).subset hmem)
    have hcut : sh.behind ((front ++ e :: withoutFirst (sh.members.erase d.name)
        (between ++ shorthand :: behind)).map (·.name)) =
          (withoutFirst left behind).map (·.name) := by
      rw [hnames', behind_append_of_not_mem hbehind']
    rw [hcut] at hmem ⊢
    have hmem' : member ∈ behind.map (·.name) :=
      ((withoutFirst_sublist left behind).map _).subset hmem
    have hless := hsettles member hmember (by rwa [hnames, behind_append_of_not_mem hbehind])
      (fun o ho => by
        have := h.count_merged hsh he ho
        have := hmin o ho
        omega) other hother
    rw [hnames, behind_append_of_not_mem hbehind, ← hnames] at hless
    rw [count_withoutFirst]
    by_cases hmet : left.count other = 0
    · omega
    · -- The member is not met in front of the shorthand, so all its declarations are behind it.
      have hmet' := hleftCount other
      have hle := List.nodup_iff_count_le_one.1 hnodup other
      have hd : other ≠ d.name :=
        (hsh.nodup.mem_erase_iff.1 (List.count_pos_iff.1 (by omega))).1
      have hall : ((front ++ d :: (between ++ shorthand :: behind)).map (·.name)).count other =
          (behind.map (·.name)).count other := by
        rw [hnames, List.count_append, List.count_cons_of_ne hne,
          List.map_append, List.count_append, h.count_front hsh hother, List.map_cons,
          List.count_cons_of_ne (Ne.symm hd)]
        omega
      omega
  · have hlast' : sh.name ∉ (withoutFirst (sh.members.erase d.name) back).map (·.name) := fun hmem =>
      hlast (((withoutFirst_sublist _ back).map _).subset hmem)
    have hnames : (front ++ e :: withoutFirst (sh.members.erase d.name) back).map (·.name) =
        front.map (·.name) ++
          sh.name :: (withoutFirst (sh.members.erase d.name) back).map (·.name) := by
      simp [he]
    rw [hnames] at hpos ⊢
    rw [behind_append_of_not_mem hlast', List.count_append, h.count_front hsh hother,
      List.count_cons_of_ne hne]
    omega

end Round

end Sheetsmith.Shorthand
