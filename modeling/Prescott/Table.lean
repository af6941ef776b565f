import Mathlib.Data.List.Nodup

namespace Prescott

/-!
# Tables with generated keys

A relational table whose rows carry an automatically generated identifier.
The rows stand in insertion order, and an identifier is never given twice.
Both facts are fields of the structure, so every table has them.
-/

/-- Rows that carry the identifier of their table. -/
class Keyed (Row : Type) where
  key : Row → Nat

/-- Rows in insertion order with the next identifier to be given. -/
structure Table (Row : Type) [Keyed Row] where
  rows : List Row
  nextId : Nat
  keysBelow : ∀ row ∈ rows, Keyed.key row < nextId
  keysNodup : (rows.map Keyed.key).Nodup

namespace Table

variable {Row : Type}
variable [Keyed Row]

/-- A table without rows; identifiers are counted from one. -/
def empty : Table Row where
  rows := []
  nextId := 1
  keysBelow := by simp
  keysNodup := List.nodup_nil

instance : Inhabited (Table Row) :=
  ⟨empty⟩

/-- `select ... where`. -/
def select (table : Table Row) (condition : Row → Bool) : List Row :=
  table.rows.filter condition

/-- `select ... where ... limit 1`. -/
def first (table : Table Row) (condition : Row → Bool) : Option Row :=
  table.rows.find? condition

/-- `insert`: the row is built from the identifier it is given. -/
def insert
    (table : Table Row)
    (make : Nat → Row)
    (keyed : ∀ id, Keyed.key (make id) = id) :
    Table Row where
  rows := table.rows ++ [make table.nextId]
  nextId := table.nextId + 1
  keysBelow := by
    intro row member
    rcases List.mem_append.mp member with old | new
    · exact Nat.lt_succ_of_lt (table.keysBelow row old)
    · rw [List.mem_singleton.mp new, keyed]
      exact Nat.lt_succ_self _
  keysNodup := by
    rw [List.map_append, List.map_singleton, keyed, List.nodup_append]
    refine ⟨table.keysNodup, List.nodup_singleton _, ?_⟩
    intro key old _ new same
    obtain ⟨row, member, shape⟩ := List.mem_map.mp old
    have below := table.keysBelow row member
    rw [shape, same, List.mem_singleton.mp new] at below
    exact Nat.lt_irrefl _ below

/-- `delete ... where`. -/
def deleteWhere (table : Table Row) (condition : Row → Bool) :
    Table Row where
  rows := table.rows.filter fun row => !condition row
  nextId := table.nextId
  keysBelow := fun row member =>
    table.keysBelow row (List.mem_filter.mp member).1
  keysNodup :=
    (List.filter_sublist.map Keyed.key).nodup table.keysNodup

/-- `update ... where`; an update never touches the identifier. -/
def updateWhere
    (table : Table Row)
    (condition : Row → Bool)
    (change : Row → Row)
    (keyed : ∀ row, Keyed.key (change row) = Keyed.key row) :
    Table Row where
  rows :=
    table.rows.map fun row =>
      if condition row then change row else row
  nextId := table.nextId
  keysBelow := by
    intro row member
    obtain ⟨old, oldMember, rfl⟩ := List.mem_map.mp member
    split
    · rw [keyed]
      exact table.keysBelow old oldMember
    · exact table.keysBelow old oldMember
  keysNodup := by
    have sameKeys :
        (table.rows.map fun row =>
            if condition row then change row else row).map Keyed.key =
          table.rows.map Keyed.key := by
      rw [List.map_map]
      apply List.map_congr_left
      intro row _
      simp only [Function.comp_apply]
      split
      · exact keyed row
      · rfl
    rw [sameKeys]
    exact table.keysNodup

@[simp] theorem mem_select
    {table : Table Row}
    {condition : Row → Bool}
    {row : Row} :
    row ∈ table.select condition ↔
      row ∈ table.rows ∧ condition row = true :=
  List.mem_filter

@[simp] theorem mem_rows_insert
    {table : Table Row}
    {make : Nat → Row}
    {keyed : ∀ id, Keyed.key (make id) = id}
    {row : Row} :
    row ∈ (table.insert make keyed).rows ↔
      row ∈ table.rows ∨ row = make table.nextId := by
  simp [insert]

@[simp] theorem mem_rows_deleteWhere
    {table : Table Row}
    {condition : Row → Bool}
    {row : Row} :
    row ∈ (table.deleteWhere condition).rows ↔
      row ∈ table.rows ∧ condition row = false := by
  simp [deleteWhere]

theorem mem_rows_updateWhere
    {table : Table Row}
    {condition : Row → Bool}
    {change : Row → Row}
    {keyed : ∀ row, Keyed.key (change row) = Keyed.key row}
    {row : Row} :
    row ∈ (table.updateWhere condition change keyed).rows ↔
      ∃ old ∈ table.rows,
        (if condition old then change old else old) = row :=
  List.mem_map

/-- The first row that meets a condition is one of the table. -/
theorem mem_of_first
    {table : Table Row}
    {condition : Row → Bool}
    {row : Row}
    (found : table.first condition = some row) :
    row ∈ table.rows ∧ condition row = true :=
  ⟨List.mem_of_find?_eq_some found, List.find?_some found⟩

/-- No first row: no row meets the condition. -/
theorem first_eq_none
    {table : Table Row}
    {condition : Row → Bool} :
    table.first condition = none ↔
      ∀ row ∈ table.rows, condition row = false := by
  simp [first]

/-- There is a first row as soon as some row meets the condition. -/
theorem first_isSome
    {table : Table Row}
    {condition : Row → Bool} :
    (table.first condition).isSome ↔
      ∃ row ∈ table.rows, condition row = true := by
  simp [first]

/-- An identifier belongs to one row. -/
theorem eq_of_key
    {table : Table Row}
    {left right : Row}
    (leftMember : left ∈ table.rows)
    (rightMember : right ∈ table.rows)
    (sameKey : Keyed.key left = Keyed.key right) :
    left = right :=
  List.inj_on_of_nodup_map table.keysNodup leftMember rightMember sameKey

/-- A row is found by its identifier. -/
theorem first_of_key
    {table : Table Row}
    {row : Row}
    {key : Nat}
    (member : row ∈ table.rows)
    (sameKey : Keyed.key row = key) :
    (table.first fun other => Keyed.key other == key) = some row := by
  cases found : table.first fun other => Keyed.key other == key with
  | none =>
      have differs := first_eq_none.mp found row member
      simp [sameKey] at differs
  | some other =>
      obtain ⟨present, matching⟩ := mem_of_first found
      rw [eq_of_key present member
        ((beq_iff_eq.mp matching).trans sameKey.symm)]

/--
A later state of a table whose rows are inserted and deleted, never updated:
a row with an old identifier is the old row.
-/
structure Follows (earlier later : Table Row) : Prop where
  nextId_le : earlier.nextId ≤ later.nextId
  old :
    ∀ row ∈ later.rows, Keyed.key row < earlier.nextId → row ∈ earlier.rows

namespace Follows

variable {earlier later : Table Row}

theorem refl (table : Table Row) : Follows table table :=
  ⟨Nat.le_refl _, fun _ member _ => member⟩

theorem insert
    (follows : Follows earlier later)
    (make : Nat → Row)
    (keyed : ∀ id, Keyed.key (make id) = id) :
    Follows earlier (later.insert make keyed) := by
  refine ⟨Nat.le_succ_of_le follows.nextId_le, ?_⟩
  intro row member below
  rcases mem_rows_insert.mp member with present | rfl
  · exact follows.old row present below
  · rw [keyed] at below
    exact absurd follows.nextId_le (Nat.not_le_of_lt below)

theorem deleteWhere
    (follows : Follows earlier later)
    (condition : Row → Bool) :
    Follows earlier (later.deleteWhere condition) :=
  ⟨follows.nextId_le, fun row member below =>
    follows.old row (mem_rows_deleteWhere.mp member).1 below⟩

/-- An identifier belongs to one row for all time. -/
theorem eq_of_key
    (follows : Follows earlier later)
    {left right : Row}
    (leftMember : left ∈ earlier.rows)
    (rightMember : right ∈ later.rows)
    (sameKey : Keyed.key left = Keyed.key right) :
    left = right := by
  have below : Keyed.key right < earlier.nextId := by
    rw [← sameKey]
    exact earlier.keysBelow left leftMember
  exact Table.eq_of_key leftMember (follows.old right rightMember below)
    sameKey

end Follows

section Unique

variable {Key : Type}
variable {column : Row → Key}

/-- A unique column stays unique when the inserted value is new. -/
theorem nodup_insert
    {table : Table Row}
    {make : Nat → Row}
    (keyed : ∀ id, Keyed.key (make id) = id)
    (nodup : (table.rows.map column).Nodup)
    (absent :
      ∀ row ∈ table.rows, column row ≠ column (make table.nextId)) :
    ((table.insert make keyed).rows.map column).Nodup := by
  simp only [insert, List.map_append, List.map_singleton]
  rw [List.nodup_append]
  refine ⟨nodup, List.nodup_singleton _, ?_⟩
  intro old oldMember new newMember same
  obtain ⟨row, member, rfl⟩ := List.mem_map.mp oldMember
  exact absent row member (same.trans (List.mem_singleton.mp newMember))

/-- A unique column stays unique when rows are deleted. -/
theorem nodup_deleteWhere
    {table : Table Row}
    (condition : Row → Bool)
    (nodup : (table.rows.map column).Nodup) :
    ((table.deleteWhere condition).rows.map column).Nodup :=
  (List.filter_sublist.map column).nodup nodup

end Unique

end Table

end Prescott
