import Mathlib.Data.List.Induction
import Sheetsmith.Proofs.Usage.Tally

namespace Sheetsmith.Usage

/-- The uses of all parts that are reported under a name. -/
def total (tokens : List String) (name : String) (parts : List String) : Nat :=
  ((parts.filter fun part => plainName part = name).map (weight tokens)).sum

namespace Counts

/-- The selectors that have an entry. -/
def selectors (counts : Counts) : List String :=
  counts.map (·.1)

/-- Adds the uses of some parts, one after the other. -/
def addParts (tokens : List String) (counts : Counts) (parts : List String) : Counts :=
  parts.foldl (fun counts part => counts.add (plainName part) (weight tokens part)) counts

/-- The uses of two lists of parts are added one list after the other. -/
theorem addParts_append (tokens : List String) (counts : Counts) (parts more : List String) :
    counts.addParts tokens (parts ++ more) = (counts.addParts tokens parts).addParts tokens more :=
  List.foldl_append

/-- What a name is counted in a list of entries. Names are compared as they are, case included. -/
theorem lookup_cons_eq_ite (known : String) (n : Nat) (counts : Counts) (name : String) :
    List.lookup name ((known, n) :: counts) =
      if name = known then some n else counts.lookup name := by
  rw [List.lookup_cons]
  by_cases h : name = known
  · simp [h]
  · rw [if_neg h, beq_eq_false_iff_ne.2 h]

/-- Adding uses changes the entry of that name and no other. A name without an entry starts at zero.
So the entries of two names never mix, whatever the names are. -/
theorem lookup_add (name : String) (uses : Nat) (counts : Counts) (other : String) :
    (counts.add name uses).lookup other =
      if other = name then some ((counts.lookup name).getD 0 + uses) else counts.lookup other := by
  induction counts with
  | nil =>
    rw [add, lookup_cons_eq_ite, List.lookup_nil, List.lookup_nil, Option.getD_none, Nat.zero_add]
  | cons entry counts ih =>
    obtain ⟨known, n⟩ := entry
    rw [add]
    by_cases hknown : known = name
    · subst hknown
      rw [if_pos rfl, lookup_cons_eq_ite, lookup_cons_eq_ite, lookup_cons_eq_ite, if_pos rfl]
      by_cases hother : other = known <;> simp [hother]
    · rw [if_neg hknown, lookup_cons_eq_ite, lookup_cons_eq_ite, lookup_cons_eq_ite, ih,
        if_neg (Ne.symm hknown)]
      by_cases hother : other = name
      · simp [hother, Ne.symm hknown]
      · simp [hother]

/-- A new name goes to the end, and a name that has an entry keeps its place. The entries are thus
in the order in which the names were first met. -/
theorem selectors_add (name : String) (uses : Nat) (counts : Counts) :
    (counts.add name uses).selectors =
      if name ∈ counts.selectors then counts.selectors else counts.selectors ++ [name] := by
  induction counts with
  | nil => rfl
  | cons entry counts ih =>
    obtain ⟨known, n⟩ := entry
    have hcons (n : Nat) (rest : Counts) :
        selectors ((known, n) :: rest) = known :: rest.selectors := rfl
    rw [add, hcons]
    by_cases hknown : known = name
    · rw [if_pos hknown, hcons, if_pos (hknown ▸ List.mem_cons_self)]
    · rw [if_neg hknown, hcons, ih]
      by_cases hname : name ∈ selectors counts
      · rw [if_pos hname, if_pos (List.mem_cons_of_mem _ hname)]
      · rw [if_neg hname, if_neg (by simp [Ne.symm hknown, hname]), List.cons_append]

theorem nodup_selectors_addParts (tokens parts : List String) {counts : Counts}
    (h : counts.selectors.Nodup) : (counts.addParts tokens parts).selectors.Nodup := by
  refine parts.foldlRecOn (motive := fun counts => (selectors counts).Nodup) _ h ?_
  intro counts hcounts part _
  rw [selectors_add]
  split
  · exact hcounts
  · next hfresh => exact List.nodup_append.2 ⟨hcounts, by simp, by grind⟩

/-- Every name has one entry, for the uses of all parts that are reported under it. A part that no
file uses has an entry too, with no uses. -/
theorem lookup_addParts (tokens parts : List String) (name : String) :
    List.lookup name (addParts tokens [] parts) =
      if name ∈ parts.map plainName then some (total tokens name parts) else none := by
  induction parts using List.reverseRecOn with
  | nil => rfl
  | append_singleton parts part ih =>
    have hadd : addParts tokens [] (parts ++ [part]) =
        (addParts tokens [] parts).add (plainName part) (weight tokens part) := by
      rw [addParts_append]
      rfl
    rw [hadd, lookup_add]
    by_cases hname : name = plainName part
    · subst hname
      have hlast : plainName part ∈ (parts ++ [part]).map plainName := by simp
      rw [if_pos rfl, if_pos hlast, ih]
      by_cases hmem : plainName part ∈ parts.map plainName
      · rw [if_pos hmem]
        simp [total]
      · have hnone : parts.filter (fun p => plainName p = plainName part) = [] := by
          rw [List.filter_eq_nil_iff]
          intro p hp heq
          exact hmem (List.mem_map.2 ⟨p, hp, of_decide_eq_true heq⟩)
        rw [if_neg hmem]
        simp [total, hnone]
    · rw [if_neg hname, ih]
      simp [total, hname, Ne.symm hname]

/-- With one entry for each name, the entries are what the names are counted. -/
theorem mem_iff_lookup {counts : Counts} (h : counts.selectors.Nodup) {name : String} {n : Nat} :
    (name, n) ∈ counts ↔ counts.lookup name = some n := by
  induction counts with
  | nil => simp
  | cons entry counts ih =>
    obtain ⟨known, m⟩ := entry
    obtain ⟨hfresh, hrest⟩ := List.nodup_cons.1 h
    rw [lookup_cons_eq_ite, List.mem_cons, ih hrest, Prod.mk.injEq]
    by_cases hname : name = known
    · subst hname
      have hnone : counts.lookup name ≠ some n := by
        intro hsome
        exact hfresh (List.mem_map.2 ⟨(name, n), (ih hrest).2 hsome, rfl⟩)
      simp [hnone, eq_comm]
    · simp [hname]

/-- What a list of uses says about the parts that stayed. There is one entry for each text that
a part has in front of its colon, with the uses of all parts that have it; entries with fewer
uses come first, then those with smaller names. -/
structure Reports (tokens kept : List String) (counts : Counts) : Prop where
  nodup : counts.selectors.Nodup
  mem_iff : ∀ name n,
    (name, n) ∈ counts ↔ name ∈ kept.map plainName ∧ n = total tokens name kept
  sorted : counts.Pairwise fun a b => a.2 < b.2 ∨ a.2 = b.2 ∧ ¬ b.1 < a.1

/-- Entries with fewer uses come first, then those with smaller names. -/
theorem precedes_iff (a b : String × Nat) :
    precedes a b = true ↔ a.2 < b.2 ∨ a.2 = b.2 ∧ ¬ b.1 < a.1 := by
  rw [precedes, Bool.or_eq_true, decide_eq_true_iff, Bool.and_eq_true, beq_iff_eq,
    Bool.not_eq_true', decide_eq_false_iff_not]

/-- The order of entries is transitive, as a sorting by it needs. -/
theorem precedes_trans (a b c : String × Nat) (hab : precedes a b = true)
    (hbc : precedes b c = true) : precedes a c = true := by
  rw [precedes_iff] at hab hbc ⊢
  rcases hab with hab | ⟨hab, hab'⟩
  · rcases hbc with hbc | ⟨hbc, -⟩ <;> exact .inl (by omega)
  · rcases hbc with hbc | ⟨hbc, hbc'⟩
    · exact .inl (by omega)
    · have hle := String.le_trans (String.not_lt.1 hab') (String.not_lt.1 hbc')
      exact .inr ⟨hab.trans hbc, String.not_lt.2 hle⟩

theorem precedes_total (a b : String × Nat) : (precedes a b || precedes b a) = true := by
  rw [Bool.or_eq_true, precedes_iff, precedes_iff]
  rcases Nat.lt_trichotomy a.2 b.2 with h | h | h
  · exact .inl (.inl h)
  · rcases String.le_total a.1 b.1 with hle | hle
    · exact .inl (.inr ⟨h, String.not_lt.2 hle⟩)
    · exact .inr (.inr ⟨h.symm, String.not_lt.2 hle⟩)
  · exact .inr (.inl h)

/-- The sorted entries report the parts that were added. The parts may be any, also with
repetitions. -/
theorem reports_sorted_addParts (tokens parts : List String) :
    (addParts tokens [] parts).sorted.Reports tokens parts := by
  have hperm := List.mergeSort_perm (addParts tokens [] parts) precedes
  have hnodup : (addParts tokens [] parts).selectors.Nodup :=
    nodup_selectors_addParts tokens parts List.nodup_nil
  refine ⟨(hperm.map _).nodup_iff.2 hnodup, fun name n => ?_, ?_⟩
  · rw [sorted, hperm.mem_iff, mem_iff_lookup hnodup, lookup_addParts]
    split
    · next hmem => simp [hmem, eq_comm]
    · next hmem => simp [hmem]
  · have hsorted : (addParts tokens [] parts).sorted.Pairwise fun a b => precedes a b = true :=
      List.pairwise_mergeSort precedes_trans precedes_total _
    exact hsorted.imp fun {a b} h => (precedes_iff a b).1 h

end Counts

/-- Adds parts that stayed and parts that were taken out to what was found before. -/
def Findings.extend (tokens : List String) (findings : Findings) (kept removed : List String) :
    Findings :=
  ⟨findings.removed ++ removed, findings.counts.addParts tokens kept⟩

theorem Findings.extend_nil (tokens : List String) (findings : Findings) :
    findings.extend tokens [] [] = findings := by
  rw [extend, List.append_nil]
  rfl

/-- What is found in two steps is found in one. So the findings do not show in which order groups
were finished. -/
theorem Findings.extend_extend (tokens : List String) (findings : Findings)
    (kept removed more others : List String) :
    (findings.extend tokens kept removed).extend tokens more others =
      findings.extend tokens (kept ++ more) (removed ++ others) := by
  rw [extend, extend, extend, Counts.addParts_append, List.append_assoc]

/-- Of the parts of a selector, those that are kept are counted and the others listed, each in
order. The table must have the counts of the tokens. Nothing is assumed about the parts. -/
theorem foldl_note {table : Table} {tokens : List String} (h : table.Tallies tokens)
    (parts : List String) (findings : Findings) :
    parts.foldl (Findings.note table) findings =
      findings.extend tokens (parts.filter (keeps tokens))
        (parts.filter fun part => !keeps tokens part) := by
  induction parts generalizing findings with
  | nil => exact (findings.extend_nil tokens).symm
  | cons part parts ih =>
    rw [List.foldl_cons, ih, Findings.note, h.isUsed_eq, h.uses_eq]
    cases hpart : keeps tokens part
    · simp [hpart, Findings.extend]
    · simp [hpart, Findings.extend, Counts.addParts, plainName]

end Sheetsmith.Usage
