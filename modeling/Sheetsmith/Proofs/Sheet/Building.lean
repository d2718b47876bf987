import Sheetsmith.Proofs.Sheet.Trail

namespace Sheetsmith

namespace Builder

open Sheet

/-- A new node always finds its place in a group that exists: the checks that attaching makes cannot
fail for it. It gets the next number and goes behind the other children. -/
theorem add_eq {b : Builder} (hgroup : (b.sheet.group? b.current).isSome) (hroot : root < b.sheet.size)
    (node : Node) :
    b.add node =
      (b.sheet.size,
        { b with sheet := (b.sheet.create node).2.link b.current b.sheet.size (· ++ [b.sheet.size]) }) := by
  have hlt : b.current < b.sheet.size := by
    obtain ⟨g, hg⟩ := Option.isSome_iff_exists.1 hgroup
    exact lt_size_of_node? (group?_eq_some_iff.1 hg)
  have hcheck : (b.sheet.create node).2.checkGroup b.current = .ok () := by
    rw [checkGroup, group?_create, if_neg (Nat.ne_of_lt hlt), if_pos hgroup]
  have happend : (b.sheet.create node).2.appendChild b.current b.sheet.size =
      .ok ((b.sheet.create node).2.link b.current b.sheet.size (· ++ [b.sheet.size])) := by
    rw [appendChild, checkDetached_create hroot, hcheck]
    rfl
  rw [add]
  simp only [create_fst, happend]

/-- What one new node at the end of the innermost open block changes. -/
structure Added (s t : Sheet) (current : NodeId) (node : Node) : Prop where
  size : t.size = s.size + 1
  new : t.node? s.size = some node
  parent : t.parent? s.size = some current
  group : t.group? current =
    (s.group? current).map fun g => { g with children := g.children ++ [s.size] }
  node_other : ∀ id, id < s.size → id ≠ current → t.node? id = s.node? id
  parent_other : ∀ id, id < s.size → t.parent? id = s.parent? id

theorem added_link {s : Sheet} {current : NodeId} (hcurrent : current < s.size) (node : Node) :
    Added s ((s.create node).2.link current s.size (· ++ [s.size])) current node where
  size := by simp
  new := by
    rw [node?_link, if_neg (Nat.ne_of_gt hcurrent), node?_create, if_pos rfl]
  parent := by
    rw [parent?_link (by simp), if_pos rfl]
  group := by
    rw [group?_link, if_pos rfl, group?_create, if_neg (Nat.ne_of_lt hcurrent)]
  node_other id hid hne := by
    rw [node?_link, if_neg hne, node?_create, if_neg (Nat.ne_of_lt hid)]
  parent_other id hid := by
    rw [parent?_link (by simp), if_neg (Nat.ne_of_lt hid), parent?_create]

/-- The open blocks stay open when a node is added to the innermost one. -/
theorem Added.trail {s t : Sheet} {current : NodeId} {outer : List NodeId} {node : Node}
    (h : Added s t current node) (htrail : s.Trail current outer) : t.Trail current outer := by
  refine htrail.congr ?_ fun id hid => h.parent_other id (htrail.lt_size id hid)
  intro id hid hgroup
  by_cases hne : id = current
  · rw [hne, h.group, Option.isSome_map]
    exact htrail.isSome_group?
  · rwa [group?, h.node_other id (htrail.lt_size id hid) hne]

/-- What the events of `levels` have made of a sheet: every open block got new
children, and nothing else that was there has changed. -/
structure Built (s t : Sheet) (trail : List NodeId) (levels : Nat → List Outline) : Prop where
  node_other : ∀ id, id < s.size → id ∉ trail → t.node? id = s.node? id
  group : ∀ level id, trail[level]? = some id → ∃ ids, t.Shows ids (levels level) ∧
    t.group? id = (s.group? id).map fun g => { g with children := g.children ++ ids }

section

variable {s s' t : Sheet} {current : NodeId} {outer : List NodeId}

theorem built_nil (trail : List NodeId) : Built s s trail (Event.levels []) where
  node_other _ _ _ := rfl
  group level id _ := ⟨[], .nil, by simp⟩

/-- The children that an open block gets behind the node that was just added. -/
private theorem Added.exists_group {node : Node} (hadded : Added s s' current node)
    {ids : List NodeId} (hgroup : t.group? current =
      (s'.group? current).map fun g => { g with children := g.children ++ ids }) :
    t.group? current =
      (s.group? current).map fun g => { g with children := g.children ++ s.size :: ids } := by
  rw [hgroup, hadded.group]
  cases s.group? current <;> simp

private theorem Added.group?_outer {node : Node} (hadded : Added s s' current node)
    (htrail : s.Trail current outer) {id : NodeId} (hid : id ∈ outer) :
    s'.group? id = s.group? id := by
  have hne : id ≠ current := by
    rintro rfl
    exact htrail.not_mem_outer hid
  rw [group?, hadded.node_other id (htrail.lt_size id (by simp [hid])) hne, group?]

/-- A node without children of its own is added in front of what comes later: it is the first of the
new children of the innermost block, and all other blocks get what they would have got. -/
theorem Built.of_added {node : Node} {levels levels' : Nat → List Outline} {o : Outline}
    (htrail : s.Trail current outer) (hadded : Added s s' current node)
    (hbuilt : Built s' t (current :: outer) levels)
    (hshows : ∀ ids os, t.node? s.size = some node → t.Shows ids os → t.Shows (s.size :: ids) (o :: os))
    (hzero : levels' 0 = o :: levels 0) (hsucc : ∀ level, levels' (level + 1) = levels (level + 1)) :
    Built s t (current :: outer) levels' := by
  have hnew : t.node? s.size = some node := by
    rw [hbuilt.node_other, hadded.new]
    · rw [hadded.size]
      exact Nat.lt_succ_self _
    · exact fun hmem => Nat.lt_irrefl _ (htrail.lt_size _ hmem)
  refine ⟨?_, ?_⟩
  · intro id hid hnot
    rw [hbuilt.node_other id (by rw [hadded.size]; exact Nat.lt_succ_of_lt hid) hnot]
    exact hadded.node_other id hid (by rintro rfl; simp at hnot)
  · intro level id hid
    obtain ⟨ids, hids, hgroup⟩ := hbuilt.group level id hid
    cases level with
    | zero =>
      cases hid
      rw [hzero]
      exact ⟨s.size :: ids, hshows ids _ hnew hids, hadded.exists_group hgroup⟩
    | succ level =>
      rw [hsucc]
      rw [hadded.group?_outer htrail (List.mem_of_getElem? hid)] at hgroup
      exact ⟨ids, hids, hgroup⟩

/-- A block opens: it is the innermost one for what comes later, and what was the innermost block is
the second. When it has closed, it is a group in front of the later children of that block. -/
theorem Built.of_opened {selector : Option String} {levels levels' : Nat → List Outline}
    (htrail : s.Trail current outer) (hadded : Added s s' current (.group ⟨selector, []⟩))
    (hbuilt : Built s' t (s.size :: current :: outer) levels)
    (hzero : levels' 0 = .group (selector.elim [] selectorParts) (levels 0) :: levels 1)
    (hsucc : ∀ level, levels' (level + 1) = levels (level + 2)) :
    Built s t (current :: outer) levels' := by
  refine ⟨?_, ?_⟩
  · intro id hid hnot
    rw [hbuilt.node_other id (by rw [hadded.size]; exact Nat.lt_succ_of_lt hid)]
    · exact hadded.node_other id hid (by rintro rfl; simp at hnot)
    · rw [List.mem_cons, not_or]
      exact ⟨Nat.ne_of_lt hid, hnot⟩
  · intro level id hid
    obtain ⟨ids, hids, hgroup⟩ := hbuilt.group (level + 1) id hid
    cases level with
    | zero =>
      cases hid
      obtain ⟨inner, hinner, hnew⟩ := hbuilt.group 0 s.size rfl
      rw [group?_eq_some_iff.2 hadded.new] at hnew
      have hselectors : t.selectors s.size = selector.elim [] selectorParts := by
        rw [selectors, selector?, hnew]
        cases selector <;> rfl
      rw [hzero, ← hselectors]
      refine ⟨s.size :: ids, .group (by rw [hnew]; rfl) ?_ hids, hadded.exists_group hgroup⟩
      rw [children_of_group? hnew]
      exact hinner
    | succ level =>
      rw [hsucc]
      rw [hadded.group?_outer htrail (List.mem_of_getElem? hid)] at hgroup
      exact ⟨ids, hids, hgroup⟩

/-- A block closes: nothing more is added to it, and what comes later goes to the block around it.
The block around it must exist: at the outermost level a brace closes nothing. -/
theorem Built.of_closed {parent : NodeId} {levels levels' : Nat → List Outline}
    (htrail : s.Trail current (parent :: outer)) (hbuilt : Built s t (parent :: outer) levels)
    (hzero : levels' 0 = []) (hsucc : ∀ level, levels' (level + 1) = levels level) :
    Built s t (current :: parent :: outer) levels' := by
  refine ⟨?_, ?_⟩
  · intro id hid hnot
    exact hbuilt.node_other id hid fun hmem => hnot (List.mem_cons_of_mem _ hmem)
  · intro level id hid
    cases level with
    | zero =>
      cases hid
      rw [hzero]
      refine ⟨[], .nil, ?_⟩
      rw [group?, hbuilt.node_other _ (htrail.lt_size _ (by simp)) htrail.not_mem_outer, ← group?]
      cases s.group? current <;> simp
    | succ level =>
      rw [hsucc]
      exact hbuilt.group level id hid

end

/-- The builder makes the tree that the events describe, level by level: each open block gets,
behind the children that it had, what the events tell of its level. The events never close more
blocks than are open. -/
theorem built_foldl_step {events : List Event} {s : Sheet} {current : NodeId} {outer : List NodeId}
    (htrail : s.Trail current outer) (hnested : Event.Nested outer.length events) :
    Built s (events.foldl step ⟨s, current⟩).sheet (current :: outer) (Event.levels events) := by
  induction events generalizing s current outer with
  | nil => exact built_nil _
  | cons event events ih =>
    have hcurrent : current < s.size := htrail.lt_size current (by simp)
    have hroot : root < s.size := Nat.lt_of_le_of_lt (Nat.zero_le _) hcurrent
    have hadd := add_eq (b := ⟨s, current⟩) htrail.isSome_group? hroot
    rw [List.foldl_cons]
    cases event with
    | opened selector =>
      have hadded := added_link hcurrent (.group ⟨selector, []⟩)
      rw [step, hadd]
      refine Built.of_opened htrail hadded (ih ?_ hnested) rfl fun _ => rfl
      exact .cons (by rw [group?_eq_some_iff.2 hadded.new]; rfl) hadded.parent hcurrent
        (hadded.trail htrail)
    | declaration name value =>
      have hadded := added_link hcurrent (.declaration ⟨name, value⟩)
      rw [step, hadd]
      exact Built.of_added htrail hadded (ih (hadded.trail htrail) hnested)
        (fun ids os hnode hrest => .declaration hnode hrest) rfl fun _ => rfl
    | importRule text =>
      have hadded := added_link hcurrent (.leaf ⟨.importRule, text⟩)
      rw [step, hadd]
      exact Built.of_added htrail hadded (ih (hadded.trail htrail) hnested)
        (fun ids os hnode hrest => .leaf hnode hrest) rfl fun _ => rfl
    | comment text =>
      have hadded := added_link hcurrent (.leaf ⟨.comment, text⟩)
      rw [step, hadd]
      exact Built.of_added htrail hadded (ih (hadded.trail htrail) hnested)
        (fun ids os hnode hrest => .leaf hnode hrest) rfl fun _ => rfl
    | closed =>
      cases htrail with
      | root => exact absurd hnested id
      | @cons _ parent outer hgroup hparent hlt houter =>
        have hstep : step ⟨s, current⟩ .closed = ⟨s, parent⟩ := by simp [step, hparent]
        rw [hstep]
        exact Built.of_closed (.cons hgroup hparent hlt houter) (ih houter hnested) rfl fun _ => rfl

/-- Every event keeps the sheet of a builder a forest and its current block a group, whether or not
the events are nested as they should be. -/
theorem isForest_step {b : Builder} (hb : b.sheet.IsForest ∧ (b.sheet.group? b.current).isSome)
    (event : Event) :
    (b.step event).sheet.IsForest ∧ ((b.step event).sheet.group? (b.step event).current).isSome := by
  obtain ⟨hforest, hgroup⟩ := hb
  have hcurrent : b.current < b.sheet.size := by
    obtain ⟨g, hg⟩ := Option.isSome_iff_exists.1 hgroup
    exact lt_size_of_node? (group?_eq_some_iff.1 hg)
  have hadd := add_eq hgroup hforest.root_lt_size
  have hadded (node : Node) := added_link hcurrent node
  have hlink {node : Node} (hnode : ∀ g, node = .group g → g.children = []) :=
    hforest.create_link hnode hgroup (places_concat b.sheet.size)
  have hsame (node : Node) := (hadded node).group
  cases event with
  | opened selector =>
    rw [step, hadd]
    refine ⟨hlink (by rintro g ⟨⟩; rfl), ?_⟩
    rw [group?_eq_some_iff.2 (hadded _).new]
    rfl
  | declaration name value =>
    rw [step, hadd]
    exact ⟨hlink (by rintro g ⟨⟩), by rw [hsame, Option.isSome_map]; exact hgroup⟩
  | importRule text =>
    rw [step, hadd]
    exact ⟨hlink (by rintro g ⟨⟩), by rw [hsame, Option.isSome_map]; exact hgroup⟩
  | comment text =>
    rw [step, hadd]
    exact ⟨hlink (by rintro g ⟨⟩), by rw [hsame, Option.isSome_map]; exact hgroup⟩
  | closed =>
    refine ⟨hforest, ?_⟩
    cases hparent : b.sheet.parent? b.current with
    | none => simpa [step, hparent] using hgroup
    | some parent =>
      obtain ⟨g, hg⟩ := hforest.exists_group_of_parent? hparent
      simp [step, hparent, hg]

end Builder

namespace Sheet

/-- Any list of events makes a forest. It need not come from a text: closing more blocks than
are open does no harm, since the root stays the current block then. -/
theorem isForest_ofEvents (events : List Event) : (ofEvents events).IsForest := by
  have hfold : ∀ b : Builder, b.sheet.IsForest ∧ (b.sheet.group? b.current).isSome →
      (events.foldl Builder.step b).sheet.IsForest := by
    induction events with
    | nil => exact fun b hb => hb.1
    | cons event events ih => exact fun b hb => ih _ (Builder.isForest_step hb event)
  exact hfold ⟨empty, root⟩ ⟨isForest_empty, rfl⟩

/-- Every header in a sheet was reported when its block opened. No header is made up or changed on
the way. -/
theorem opened_mem_of_selector?_ofEvents {events : List Event} {id : NodeId} {selector : String}
    (h : (ofEvents events).selector? id = some selector) : .opened (some selector) ∈ events := by
  have hfold := events.foldlRecOn (motive := fun b : Builder =>
      (b.sheet.IsForest ∧ (b.sheet.group? b.current).isSome) ∧
        ∀ id selector, b.sheet.selector? id = some selector → .opened (some selector) ∈ events)
    Builder.step (b := ⟨empty, root⟩) ⟨⟨isForest_empty, rfl⟩, fun id selector hselector => ?_⟩ ?_
  · exact hfold.2 id selector h
  · cases id <;> simp [selector?, group?, node?, empty] at hselector
  · rintro b ⟨hb, hold⟩ event hevent
    refine ⟨Builder.isForest_step hb event, fun id selector hselector => ?_⟩
    have hadd (node : Node) (hnode : ∀ g, node = .group g → g.selector = some selector →
        .opened (some selector) ∈ events)
        (hadded : (b.add node).2.sheet.selector? id = some selector) :
        .opened (some selector) ∈ events := by
      rw [Builder.add_eq hb.2 hb.1.root_lt_size, selector?_link, selector?, group?_create] at hadded
      split at hadded
      · cases node with
        | group g => exact hnode g rfl hadded
        | _ => cases hadded
      · exact hold id selector hadded
    cases event with
    | opened header =>
      refine hadd (.group ⟨header, []⟩) (fun g hg hheader => ?_) hselector
      cases hg
      obtain rfl : header = some selector := hheader
      exact hevent
    | declaration name value =>
      exact hadd (.declaration ⟨name, value⟩) (by rintro g ⟨⟩) hselector
    | importRule text => exact hadd (.leaf ⟨.importRule, text⟩) (by rintro g ⟨⟩) hselector
    | comment text => exact hadd (.leaf ⟨.comment, text⟩) (by rintro g ⟨⟩) hselector
    | closed => exact hold id selector hselector

/-- The sheet of nested events shows what the events tell of the outermost level, and its root has
no header. The events need not come from a text: it is enough that no block is closed that was not
opened. -/
theorem shows_ofEvents {events : List Event} (hnested : Event.Nested 0 events) :
    (ofEvents events).selectors root = [] ∧
      (ofEvents events).Shows ((ofEvents events).children root) (Event.levels events 0) := by
  have htrail : empty.Trail root [] := .root rfl
  have hbuilt := Builder.built_foldl_step htrail hnested
  obtain ⟨ids, hids, hgroup⟩ := hbuilt.group 0 root rfl
  have hroot : (ofEvents events).group? root = some ⟨none, ids⟩ := by
    rw [ofEvents, hgroup]
    simp [empty, group?, node?, root]
  refine ⟨by rw [selectors, selector?, hroot]; rfl, ?_⟩
  rw [children_of_group? hroot]
  exact hids

end Sheet

end Sheetsmith
