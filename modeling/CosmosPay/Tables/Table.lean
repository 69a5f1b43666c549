import Mathlib.Data.List.Pairwise
import Mathlib.Data.List.Basic

/-!
# Tables under uniqueness constraints

A table is a list of rows of which no two clash.  The clash relation stands for
the unique indexes of the table; the primary key is one of them.  Insertions and
updates that would create a clash are refused, so a table that violates a
constraint cannot be built.
-/

namespace Tables

variable {ρ κ : Type}

/-- The unique indexes of a table: two rows clash when some index may not hold
both.  Rows with the same primary key always clash. -/
structure Indexes (ρ κ : Type) where
  key : ρ → κ
  clash : ρ → ρ → Bool
  symm : ∀ {first second}, clash first second = true → clash second first = true
  clash_of_key_eq : ∀ {first second}, key first = key second → clash first second = true

structure Table (indexes : Indexes ρ κ) where
  rows : List ρ
  distinct : rows.Pairwise fun first second => indexes.clash first second = false

/-- Why a statement is refused. -/
inductive Refusal where
  | missing
  | taken
  deriving DecidableEq

variable {indexes : Indexes ρ κ}

theorem Indexes.clash_comm_false {first second : ρ}
    (free : indexes.clash first second = false) : indexes.clash second first = false := by
  cases clashes : indexes.clash second first with
  | false => rfl
  | true => exact absurd (indexes.symm clashes) (by simp [free])

/-- Change the row under `key` and leave the others alone. -/
def Indexes.changeRow [DecidableEq κ] (indexes : Indexes ρ κ) (change : ρ → ρ) (key : κ)
    (row : ρ) : ρ :=
  if indexes.key row = key then change row else row

namespace Table

def empty : Table indexes :=
  ⟨[], .nil⟩

/-- Insert a row, unless it clashes with one that is there. -/
def insert? (table : Table indexes) (row : ρ) : Option (Table indexes) :=
  if free : ∀ old ∈ table.rows, indexes.clash old row = false then
    some ⟨table.rows ++ [row], List.pairwise_append.mpr
      ⟨table.distinct, List.pairwise_singleton _ _, fun old member _ isRow =>
        List.mem_singleton.mp isRow ▸ free old member⟩⟩
  else none

theorem eq_of_clash {table : Table indexes} {first second : ρ}
    (firstMem : first ∈ table.rows) (secondMem : second ∈ table.rows)
    (clashes : indexes.clash first second = true) : first = second := by
  by_contra differ
  have : Std.Symm fun first second => indexes.clash first second = false :=
    ⟨fun _ _ => Indexes.clash_comm_false⟩
  have free := table.distinct.forall firstMem secondMem differ
  simp [free] at clashes

theorem eq_of_key_eq {table : Table indexes} {first second : ρ}
    (firstMem : first ∈ table.rows) (secondMem : second ∈ table.rows)
    (same : indexes.key first = indexes.key second) : first = second :=
  eq_of_clash firstMem secondMem (indexes.clash_of_key_eq same)

theorem nodup_keys {table : Table indexes} : (table.rows.map indexes.key).Nodup := by
  refine List.pairwise_map.mpr (table.distinct.imp fun free same => ?_)
  simp [indexes.clash_of_key_eq same] at free

variable [DecidableEq κ]

def find? (table : Table indexes) (key : κ) : Option ρ :=
  table.rows.find? fun row => indexes.key row = key

/-- A lookup returns exactly the row with that key. -/
theorem find?_eq_some_iff {table : Table indexes} {key : κ} {row : ρ} :
    table.find? key = some row ↔ row ∈ table.rows ∧ indexes.key row = key := by
  constructor
  · intro found
    exact ⟨List.mem_of_find?_eq_some found, by simpa using List.find?_some found⟩
  · rintro ⟨member, rfl⟩
    cases found : table.find? (indexes.key row) with
    | none =>
        have absent := List.find?_eq_none.mp found row member
        simp at absent
    | some other =>
        have otherMem := List.mem_of_find?_eq_some found
        have otherKey : indexes.key other = indexes.key row := by
          simpa using List.find?_some found
        rw [eq_of_key_eq otherMem member otherKey]

theorem find?_eq_none_iff {table : Table indexes} {key : κ} :
    table.find? key = none ↔ ∀ row ∈ table.rows, indexes.key row ≠ key := by
  simp [find?, List.find?_eq_none]

theorem mem_of_find? {table : Table indexes} {key : κ} {row : ρ}
    (found : table.find? key = some row) : row ∈ table.rows :=
  (find?_eq_some_iff.mp found).1

theorem key_of_find? {table : Table indexes} {key : κ} {row : ρ}
    (found : table.find? key = some row) : indexes.key row = key :=
  (find?_eq_some_iff.mp found).2

theorem find?_key {table : Table indexes} {row : ρ} (member : row ∈ table.rows) :
    table.find? (indexes.key row) = some row :=
  find?_eq_some_iff.mpr ⟨member, rfl⟩

/-! ## Insertion -/

omit [DecidableEq κ] in
theorem insert?_eq_some {table table' : Table indexes} {row : ρ}
    (inserted : table.insert? row = some table') :
    table'.rows = table.rows ++ [row] ∧ ∀ old ∈ table.rows, indexes.clash old row = false := by
  unfold insert? at inserted
  split at inserted
  · rename_i free
    obtain rfl := Option.some.inj inserted
    exact ⟨rfl, free⟩
  · cases inserted

omit [DecidableEq κ] in
theorem insert?_eq_none {table : Table indexes} {row : ρ}
    (refused : table.insert? row = none) :
    ∃ old ∈ table.rows, indexes.clash old row = true := by
  unfold insert? at refused
  split at refused
  · cases refused
  · rename_i clashes
    push Not at clashes
    obtain ⟨old, member, clash⟩ := clashes
    exact ⟨old, member, by simpa using clash⟩

omit [DecidableEq κ] in
theorem mem_insert? {table table' : Table indexes} {row other : ρ}
    (inserted : table.insert? row = some table') :
    other ∈ table'.rows ↔ other ∈ table.rows ∨ other = row := by
  rw [(insert?_eq_some inserted).1]
  simp

theorem find?_insert? {table table' : Table indexes} {row : ρ} {key : κ}
    (inserted : table.insert? row = some table') :
    table'.find? key = if indexes.key row = key then some row else table.find? key := by
  obtain ⟨rows, free⟩ := insert?_eq_some inserted
  split
  · rename_i same
    exact find?_eq_some_iff.mpr ⟨by simp [rows], same⟩
  · rename_i differ
    simp [find?, rows, differ]

/-! ## Update -/

section Update

variable (change : ρ → ρ) (keeps : ∀ row, indexes.key (change row) = indexes.key row)

theorem distinct_changeRow {table : Table indexes} {key : κ} {row : ρ}
    (found : table.find? key = some row)
    (free : ∀ other ∈ table.rows, indexes.key other ≠ key →
      indexes.clash other (change row) = false) :
    (table.rows.map (indexes.changeRow change key)).Pairwise
      fun first second => indexes.clash first second = false := by
  refine List.pairwise_map.mpr (table.distinct.imp_of_mem ?_)
  intro first second firstMem secondMem apart
  have isRow : ∀ other ∈ table.rows, indexes.key other = key → other = row :=
    fun other member same => eq_of_key_eq member (mem_of_find? found)
      (same.trans (key_of_find? found).symm)
  have keysDiffer : indexes.key first ≠ indexes.key second := fun same => by
    simp [indexes.clash_of_key_eq same] at apart
  unfold Indexes.changeRow
  split <;> split
  · rename_i firstKey secondKey
    exact absurd (firstKey.trans secondKey.symm) keysDiffer
  · rename_i firstKey secondKey
    rw [isRow first firstMem firstKey]
    exact indexes.clash_comm_false (free second secondMem secondKey)
  · rename_i firstKey secondKey
    rw [isRow second secondMem secondKey]
    exact free first firstMem firstKey
  · exact apart

/-- Change the row under `key`; refused when there is none, or when the changed
row clashes with another one. -/
def update (table : Table indexes) (key : κ) : Except Refusal (ρ × Table indexes) :=
  match found : table.find? key with
  | none => .error .missing
  | some row =>
      if free : ∀ other ∈ table.rows, indexes.key other ≠ key →
          indexes.clash other (change row) = false then
        .ok (change row, ⟨table.rows.map (indexes.changeRow change key),
          distinct_changeRow change found free⟩)
      else .error .taken

variable {change}

theorem update_eq_ok {table table' : Table indexes} {key : κ} {row' : ρ}
    (updated : table.update change key = .ok (row', table')) :
    ∃ row, table.find? key = some row ∧ row' = change row ∧
      table'.rows = table.rows.map (indexes.changeRow change key) ∧
      ∀ other ∈ table.rows, indexes.key other ≠ key →
        indexes.clash other (change row) = false := by
  unfold update at updated
  split at updated
  · cases updated
  · rename_i row found
    split at updated
    · rename_i free
      cases updated
      exact ⟨row, found, rfl, rfl, free⟩
    · cases updated

theorem update_eq_error {table : Table indexes} {key : κ} {refusal : Refusal}
    (refused : table.update change key = .error refusal) :
    (refusal = .missing ∧ table.find? key = none) ∨
      (refusal = .taken ∧ ∃ row, table.find? key = some row ∧
        ∃ other ∈ table.rows, indexes.key other ≠ key ∧
          indexes.clash other (change row) = true) := by
  unfold update at refused
  split at refused
  · rename_i absent
    cases refused
    exact .inl ⟨rfl, absent⟩
  · rename_i row found
    split at refused
    · cases refused
    · rename_i clashes
      cases refused
      push Not at clashes
      obtain ⟨other, member, differ, clash⟩ := clashes
      exact .inr ⟨rfl, row, found, other, member, differ, by simpa using clash⟩

include keeps in
theorem find?_update {table table' : Table indexes} {key other : κ} {row' : ρ}
    (updated : table.update change key = .ok (row', table')) :
    table'.find? other = if key = other then some row' else table.find? other := by
  obtain ⟨row, found, rfl, rows, -⟩ := update_eq_ok updated
  obtain ⟨member, rowKey⟩ := find?_eq_some_iff.mp found
  split
  · rename_i same
    subst same
    refine find?_eq_some_iff.mpr ⟨?_, (keeps row).trans rowKey⟩
    rw [rows]
    exact List.mem_map.mpr ⟨row, member, by simp [Indexes.changeRow, rowKey]⟩
  · rename_i differ
    unfold find?
    rw [rows, List.find?_map]
    have unchanged : ((fun row => decide (indexes.key row = other)) ∘
        indexes.changeRow change key) = fun row => decide (indexes.key row = other) := by
      funext candidate
      simp only [Function.comp_apply, Indexes.changeRow]
      split
      · rw [keeps]
      · rfl
    rw [unchanged]
    cases lookup : table.rows.find? (fun row => decide (indexes.key row = other)) with
    | none => rfl
    | some candidate =>
        have candidateKey : indexes.key candidate = other := by
          simpa using List.find?_some lookup
        simp [Indexes.changeRow, candidateKey, Ne.symm differ]

theorem mem_update {table table' : Table indexes} {key : κ} {row' other : ρ}
    (updated : table.update change key = .ok (row', table')) :
    other ∈ table'.rows ↔ other = row' ∨ (other ∈ table.rows ∧ indexes.key other ≠ key) := by
  obtain ⟨row, found, isNew, rows, -⟩ := update_eq_ok updated
  obtain ⟨rowMem, rowKey⟩ := find?_eq_some_iff.mp found
  rw [rows, List.mem_map]
  constructor
  · rintro ⟨old, member, rfl⟩
    unfold Indexes.changeRow
    split
    · rename_i same
      rw [eq_of_key_eq member rowMem (same.trans rowKey.symm), isNew]
      exact .inl rfl
    · rename_i differ
      exact .inr ⟨member, differ⟩
  · rintro (rfl | ⟨member, differ⟩)
    · exact ⟨row, rowMem, by simp [Indexes.changeRow, rowKey, isNew]⟩
    · exact ⟨other, member, by simp [Indexes.changeRow, differ]⟩

end Update

/-! ## Restriction -/

/-- The rows that satisfy a condition. -/
def restrict (table : Table indexes) (keep : ρ → Bool) : Table indexes :=
  ⟨table.rows.filter keep, table.distinct.filter keep⟩

theorem find?_restrict {table : Table indexes} {keep : ρ → Bool} {key : κ} :
    (table.restrict keep).find? key = (table.find? key).filter keep := by
  cases found : table.find? key with
  | none =>
      have absent := find?_eq_none_iff.mp found
      refine find?_eq_none_iff.mpr fun row member => ?_
      exact absent row (List.mem_of_mem_filter member)
  | some row =>
      obtain ⟨member, rowKey⟩ := find?_eq_some_iff.mp found
      cases kept : keep row with
      | true =>
          rw [Option.filter_some_pos kept]
          exact find?_eq_some_iff.mpr ⟨List.mem_filter.mpr ⟨member, kept⟩, rowKey⟩
      | false =>
          rw [Option.filter_some_neg (by simp [kept])]
          refine find?_eq_none_iff.mpr fun other otherMem same => ?_
          obtain ⟨otherMem, otherKept⟩ := List.mem_filter.mp otherMem
          rw [eq_of_key_eq otherMem member (same.trans rowKey.symm), kept] at otherKept
          cases otherKept

/-- Without one of its rows, a table counts that row less. -/
theorem countP_restrict_ne {table : Table indexes} {row : ρ} (member : row ∈ table.rows)
    (counts : ρ → Bool) :
    table.rows.countP counts =
      (table.restrict fun other => indexes.key other ≠ indexes.key row).rows.countP counts +
        if counts row then 1 else 0 := by
  obtain ⟨before, after, split⟩ := List.append_of_mem member
  have distinct := table.distinct
  rw [split, List.pairwise_append, List.pairwise_cons] at distinct
  obtain ⟨-, ⟨later, -⟩, earlier⟩ := distinct
  have differs : ∀ {first second : ρ}, indexes.clash first second = false →
      indexes.key first ≠ indexes.key second := by
    intro first second free same
    simp [indexes.clash_of_key_eq same] at free
  have keepsBefore : before.filter (fun other => indexes.key other ≠ indexes.key row) = before :=
    List.filter_eq_self.mpr fun other isBefore => by
      simpa using differs (earlier other isBefore row List.mem_cons_self)
  have keepsAfter : after.filter (fun other => indexes.key other ≠ indexes.key row) = after :=
    List.filter_eq_self.mpr fun other isAfter => by
      simpa using (differs (later other isAfter)).symm
  have rest : (table.restrict fun other => indexes.key other ≠ indexes.key row).rows =
      before ++ after := by
    simp only [restrict, split, List.filter_append, keepsBefore]
    rw [List.filter_cons_of_neg (by simp), keepsAfter]
  rw [rest, split]
  simp only [List.countP_append, List.countP_cons]
  omega

end Table

end Tables
