import CosmosPay.Awaiting.Pairing
import CosmosPay.Service

/-!
# Comparing two stores

Rows seen through a map that blurs some of their columns: rows that look the same are found,
filtered, arranged and patched the same, as long as nothing blurred is asked for.  What a
statement does is a function of the contents of the store.
-/

namespace CosmosPay

open Awaiting Tables

/-! ## Lists of rows seen through a map -/

section Lists

variable {ρ : Type} {blur : ρ → ρ} {rows rows' : List ρ}

theorem find?_blur (same : rows.map blur = rows'.map blur) {keep : ρ → Bool}
    (blind : ∀ row, keep (blur row) = keep row) :
    (rows.find? keep).map blur = (rows'.find? keep).map blur := by
  have found : ∀ rows : List ρ, (rows.map blur).find? keep = (rows.find? keep).map blur := by
    intro rows
    rw [List.find?_map]
    congr 2
    exact funext blind
  rw [← found, ← found, same]

theorem filter_blur (same : rows.map blur = rows'.map blur) {keep : ρ → Bool}
    (blind : ∀ row, keep (blur row) = keep row) :
    (rows.filter keep).map blur = (rows'.filter keep).map blur := by
  have kept : ∀ rows : List ρ, (rows.map blur).filter keep = (rows.filter keep).map blur := by
    intro rows
    rw [List.filter_map]
    congr 2
    exact funext blind
  rw [← kept, ← kept, same]

theorem arrange?_blur {id : ρ → String} (same : rows.map blur = rows'.map blur)
    (keepsId : ∀ row, id (blur row) = id row) (order : List String) :
    (arrange? id rows order).map (List.map blur) =
      (arrange? id rows' order).map (List.map blur) := by
  have arranged : ∀ rows : List ρ, arrange? id (rows.map blur) order =
      (arrange? id rows order).map (List.map blur) := by
    intro rows
    have sameIds : (rows.map blur).map id = rows.map id := by
      simp [keepsId]
    unfold arrange?
    rw [sameIds]
    split
    · simp only [Option.map_some, List.map_filterMap]
      congr 2
      funext listed
      rw [List.find?_map]
      congr 2
      funext row
      simp [keepsId]
    · rfl
  rw [← arranged, ← arranged, same]

theorem arrangeBy?_blur {id : ρ → String} {column : ρ → Int}
    (same : rows.map blur = rows'.map blur) (keepsId : ∀ row, id (blur row) = id row)
    (keepsColumn : ∀ row, column (blur row) = column row) (order : List String) :
    (arrangeBy? id column rows order).map (List.map blur) =
      (arrangeBy? id column rows' order).map (List.map blur) := by
  have sorted : ∀ arranged : List ρ,
      (arranged.map blur).Pairwise (fun first second => column first ≤ column second) ↔
        arranged.Pairwise fun first second => column first ≤ column second := by
    intro arranged
    simp [List.pairwise_map, keepsColumn]
  have filtered : ∀ arranged? : Option (List ρ),
      (arranged?.filter fun arranged => decide (arranged.Pairwise
          fun first second => column first ≤ column second)).map (List.map blur) =
        (arranged?.map (List.map blur)).filter fun arranged => decide (arranged.Pairwise
          fun first second => column first ≤ column second) := by
    intro arranged?
    cases arranged? with
    | none => rfl
    | some arranged => simp [Option.filter, sorted, apply_ite]
  unfold arrangeBy?
  rw [filtered, filtered, arrange?_blur same keepsId]

theorem option_filter_blur {first second : Option ρ} (same : first.map blur = second.map blur)
    {keep : ρ → Bool} (blind : ∀ row, keep (blur row) = keep row) :
    (first.filter keep).map blur = (second.filter keep).map blur := by
  have kept : ∀ found : Option ρ, (found.map blur).filter keep = (found.filter keep).map blur := by
    intro found
    cases found with
    | none => rfl
    | some row => simp [Option.filter, blind, apply_ite]
  rw [← kept, ← kept, same]

theorem rel_of_eq {α : Type} {first second : Option α} (same : first = second) :
    Option.Rel Eq first second := by
  subst same
  cases first with
  | none => exact .none
  | some value => exact .some rfl

theorem rel_of_map_eq {α β : Type} {convert : α → β} {first second : Option α}
    (same : first.map convert = second.map convert) :
    Option.Rel (fun one other => convert one = convert other) first second := by
  cases first <;> cases second
  · exact .none
  · cases same
  · cases same
  · exact .some (Option.some.inj same)

/-- A table that has no unique index but its key takes every patch of a row that is there. -/
theorem update_blur {κ : Type} [DecidableEq κ] {key : ρ → κ}
    {table table' : Table (primaryKeyOnly key)}
    (same : table.rows.map blur = table'.rows.map blur)
    (again : ∀ row, blur (blur row) = blur row) (keepsKey : ∀ row, key (blur row) = key row)
    (change : ρ → ρ) (keeps : ∀ row, key (change row) = key row)
    (blurs : ∀ row, blur (change (blur row)) = blur (change row)) (id : κ) :
    Agree (fun one other => blur one.1 = blur other.1 ∧
        one.2.rows.map blur = other.2.rows.map blur)
      (table.update change id) (table'.update change id) := by
  have found : (table.find? id).map blur = (table'.find? id).map blur :=
    find?_blur same fun row => decide_eq_decide.mpr (by simp [primaryKeyOnly, keepsKey])
  have missing : ∀ {table : Table (primaryKeyOnly key)} {refusal : Refusal},
      table.update change id = .error refusal → refusal = .missing ∧ table.find? id = none := by
    intro table refusal refused
    rcases Table.update_eq_error refused with absent | ⟨-, row, isRow, other, -, differ, clash⟩
    · exact absent
    · have isId : key row = id := Table.key_of_find? isRow
      simp only [primaryKeyOnly, keeps, isId, decide_eq_true_eq] at clash
      exact absurd clash differ
  have changed : ∀ rows : List ρ,
      (rows.map ((primaryKeyOnly key).changeRow change id)).map blur =
        (rows.map blur).map fun row => blur ((primaryKeyOnly key).changeRow change id row) := by
    intro rows
    rw [List.map_map, List.map_map]
    congr 1
    funext row
    simp only [Function.comp_apply, Indexes.changeRow, primaryKeyOnly, keepsKey]
    split
    · exact (blurs row).symm
    · exact (again row).symm
  cases one : table.update change id with
  | error refusal =>
      obtain ⟨rfl, absent⟩ := missing one
      cases other : table'.update change id with
      | error refusal =>
          obtain ⟨rfl, -⟩ := missing other
          exact .error _
      | ok updated =>
          obtain ⟨row, isRow, -⟩ := Table.update_eq_ok other
          simp [absent, isRow] at found
  | ok updated =>
      obtain ⟨row, isRow, isNew, rows, -⟩ := Table.update_eq_ok one
      cases other : table'.update change id with
      | error refusal =>
          obtain ⟨-, absent⟩ := missing other
          simp [absent, isRow] at found
      | ok updated' =>
          obtain ⟨row', isRow', isNew', rows', -⟩ := Table.update_eq_ok other
          rw [isRow, isRow'] at found
          have sameRow : blur row = blur row' := Option.some.inj found
          refine .ok ⟨?_, ?_⟩
          · rw [isNew, isNew', ← blurs row, sameRow, blurs row']
          · rw [rows, rows', changed, changed, same]

end Lists

/-! ## The effect of a statement -/

/-- What a store holds. -/
structure Contents where
  consumers : Table consumerIndexes
  tables : (model : Model) → Table model.indexes
  issued : List String

def Store.contents (store : Store) : Contents :=
  ⟨store.consumers, store.tables, store.issued⟩

section Statements

variable {store : Store} {model : Model} {id : String}

/-- The answer of a statement and the contents of the store that it leaves. -/
def Store.effect {α : Type} (executed : Except ServiceError (α × Store)) :
    Except ServiceError (α × Contents) :=
  executed.map fun result => (result.1, result.2.contents)

theorem effect_update (patch : model.Patch) :
    Store.effect (store.update model id patch) =
      if model.nullsRequired patch then .error (.other "PrismaClientValidationError")
      else
        match (store.tables model).update (model.apply patch) id with
        | .error .missing => .error (.prisma "P2025")
        | .error .taken => .error (.prisma "P2002")
        | .ok (row, table) =>
            .ok (row, ⟨store.consumers, Function.update store.tables model table,
              store.issued⟩) := by
  unfold Store.update
  split
  · rfl
  · split <;> rename_i updated <;> simp only [updated] <;> rfl

theorem effect_upsertConsumer (username : String) (credentialId : Option String) :
    Store.effect (store.upsertConsumer username credentialId id) =
      match store.consumers.rows.find? fun row => row.apisixUsername = username with
      | some found =>
          match store.consumers.update (fun row => { row with credentialId }) found.id with
          | .error _ => .error (.prisma "P2025")
          | .ok (row, table) => .ok (row, ⟨table, store.tables, store.issued⟩)
      | none =>
          match store.consumers.insert? ⟨id, username, credentialId⟩ with
          | none => .error (.prisma "P2002")
          | some table =>
              .ok (⟨id, username, credentialId⟩, ⟨table, store.tables, id :: store.issued⟩) := by
  unfold Store.upsertConsumer Store.consumerNamed
  split
  · rename_i named
    try simp only [named]
    split <;> rename_i updated <;> (try simp only [updated]) <;> rfl
  · rename_i absent
    try simp only [absent]
    split <;> rename_i inserted <;> (try simp only [inserted]) <;> rfl

end Statements

end CosmosPay
