import Mathlib.Algebra.GroupWithZero.Nat
import Mathlib.Data.List.Dedup
import Sheetsmith.Usage.Clean

namespace Sheetsmith.Usage

/-- Whether a name belongs to a pseudo-class or is among the used ones. -/
def isKnown (tokens : List String) (name : String) : Bool :=
  Table.pseudoClasses.contains name || tokens.contains name

/-- Whether all names of a part, what follows a colon apart, are known. -/
def keeps (tokens : List String) (part : String) : Bool :=
  (names (plainPart part)).all (isKnown tokens)

/-- How many of the used names are names of a part. A name that the part has twice counts twice. -/
def weight (tokens : List String) (part : String) : Nat :=
  ((names (plainPart part)).map fun name => tokens.count name).sum

/-- The text under which the uses of a part are reported. -/
def plainName (part : String) : String :=
  String.ofList (Text.trim (plainPart part))

namespace Table

/-- The table counts these uses, on top of the names of pseudo-classes. -/
structure Tallies (table : Table) (tokens : List String) : Prop where
  contains_eq : ∀ name, table.contains name = isKnown tokens name
  getD_eq : ∀ name, table.getD name 0 = tokens.count name

private theorem foldl_insert_zero (words : List String) {table : Table}
    (hzero : ∀ name, table.getD name 0 = 0) :
    let table' : Table := words.foldl (fun table name => table.insert name 0) table
    (∀ name, table'.contains name = (table.contains name || words.contains name)) ∧
      ∀ name, table'.getD name 0 = 0 := by
  induction words generalizing table with
  | nil => exact ⟨fun name => by simp, hzero⟩
  | cons word words ih =>
    have hinsert : ∀ name, (table.insert word 0).getD name 0 = 0 := by
      intro name
      rw [Std.HashMap.getD_insert, hzero, ite_self]
    obtain ⟨hcontains, hgetD⟩ := ih hinsert
    refine ⟨fun name => ?_, hgetD⟩
    rw [List.foldl_cons, hcontains, Std.HashMap.contains_insert, List.contains_cons, BEq.comm]
    cases name == word <;> simp

/-- The table starts with the names of pseudo-classes and no uses. -/
theorem tallies_start : start.Tallies [] := by
  have hempty : ∀ name, (∅ : Table).getD name 0 = 0 := by simp
  obtain ⟨hcontains, hgetD⟩ := foldl_insert_zero pseudoClasses hempty
  refine ⟨fun name => ?_, hgetD⟩
  rw [start, hcontains]
  simp [isKnown]

namespace Tallies

variable {table : Table} {tokens : List String} (h : table.Tallies tokens)
include h

theorem count (name : String) : (table.count name).Tallies (tokens ++ [name]) := by
  refine ⟨fun other => ?_, fun other => ?_⟩
  · rw [Table.count, Std.HashMap.contains_insert, h.contains_eq, isKnown, isKnown,
      List.contains_append, List.contains_cons, BEq.comm]
    cases other == name <;> simp
  · rw [Table.count, Std.HashMap.getD_insert, h.getD_eq, h.getD_eq, List.count_append,
      List.count_singleton]
    by_cases hname : name = other <;> simp [hname]

/-- Counting names one after the other adds a use for each. -/
theorem foldl_count (more : List String) : (more.foldl Table.count table).Tallies (tokens ++ more) := by
  induction more generalizing table tokens with
  | nil => simpa using h
  | cons name more ih => simpa using ih (h.count name)

/-- Counting files one after the other adds the names of each. The table may already hold counts,
and the files may be any. -/
theorem foldl_countFile (strategy : ScanStrategy) (contents : List String) :
    (contents.foldl (countFile strategy) table).Tallies
      (tokens ++ contents.flatMap strategy.tokens) := by
  induction contents generalizing table tokens with
  | nil => simpa using h
  | cons content contents ih =>
    rw [List.foldl_cons, List.flatMap_cons, ← List.append_assoc]
    exact ih (h.foldl_count (strategy.tokens content))

/-- The order in which names were counted does not show. -/
theorem of_perm {others : List String} (hperm : tokens.Perm others) : table.Tallies others := by
  refine ⟨fun name => ?_, fun name => ?_⟩
  · rw [h.contains_eq, isKnown, isKnown, hperm.contains_eq]
  · rw [h.getD_eq, hperm.count_eq]

/-- The table has one entry for each name it knows. -/
theorem size_eq : table.size = (pseudoClasses ++ tokens).dedup.length := by
  rw [← Std.HashMap.length_keys]
  refine ((List.perm_ext_iff_of_nodup Std.HashMap.nodup_keys (List.nodup_dedup _)).2 ?_).length_eq
  intro name
  rw [Std.HashMap.mem_keys, ← Std.HashMap.contains_iff_mem, h.contains_eq, isKnown]
  simp

/-- The program's test for a used part is whether the names keep it. -/
theorem isUsed_eq (part : String) : isUsed table part = keeps tokens part := by
  rw [isUsed, keeps]
  exact congrArg _ (funext h.contains_eq)

/-- The uses that the program adds up for a part are the weight of the part. -/
theorem uses_eq (part : String) : uses table part = weight tokens part := by
  have hstep : (fun total name => total + table.getD name 0) =
      fun total name => total + tokens.count name := by
    funext total name
    rw [h.getD_eq]
  rw [uses, hstep, weight, List.sum_eq_foldl, List.foldl_map]

end Tallies

/-- The table of a project counts the names of all its files, whatever the strategy takes for a
name. -/
theorem tallies_ofFiles (strategy : ScanStrategy) (contents : List String) :
    (ofFiles strategy contents).Tallies (contents.flatMap strategy.tokens) :=
  tallies_start.foldl_countFile strategy contents

end Table

end Sheetsmith.Usage
