import CosmosPay.Gateway
import Mathlib.Logic.Function.Basic

/-!
# The store

All tables together with the ids drawn so far, and the statements that Prisma
sends: create, update and delete by id, and the upsert of a consumer.  A
statement that violates a constraint fails with its Prisma code and changes
nothing.
-/

namespace CosmosPay

open Tables

/-- The rows of every table.  Each id in use is one of those drawn so far, and
none of these is ever drawn again. -/
structure Store where
  consumers : Table consumerIndexes
  tables : (model : Model) → Table model.indexes
  issued : List String
  consumersIssued : ∀ row ∈ consumers.rows, row.id ∈ issued
  rowsIssued : ∀ model, ∀ row ∈ (tables model).rows, model.indexes.key row ∈ issued

namespace Store

def empty : Store where
  consumers := .empty
  tables _ := .empty
  issued := []
  consumersIssued := by simp [Table.empty]
  rowsIssued := by simp [Table.empty]

abbrev intents (store : Store) : Table intentIndexes :=
  store.tables .paymentIntent

def find? (store : Store) (model : Model) (id : String) : Option model.Row :=
  (store.tables model).find? id

theorem issued_of_find? {store : Store} {model : Model} {id : String} {row : model.Row}
    (found : store.find? model id = some row) : id ∈ store.issued := by
  have member := store.rowsIssued model row (Table.mem_of_find? found)
  rwa [Table.key_of_find? found] at member

/-- Replace one table. -/
def put (store : Store) (model : Model) (table : Table model.indexes) (issued : List String)
    (grown : ∀ id ∈ store.issued, id ∈ issued)
    (tableIssued : ∀ row ∈ table.rows, model.indexes.key row ∈ issued) : Store where
  consumers := store.consumers
  tables := Function.update store.tables model table
  issued := issued
  consumersIssued row member := grown _ (store.consumersIssued row member)
  rowsIssued other row member := by
    by_cases same : other = model
    · subst same
      exact tableIssued row (by simpa using member)
    · rw [Function.update_of_ne same] at member
      exact grown _ (store.rowsIssued other row member)

/-- Keep only the rows of one table that satisfy a condition. -/
def restrict (store : Store) (model : Model) (keep : model.Row → Bool) : Store :=
  store.put model ((store.tables model).restrict keep) store.issued (fun _ known => known)
    fun row member => store.rowsIssued model row (List.mem_of_mem_filter member)

/-- The consumer row of an APISIX username. -/
def consumerNamed (store : Store) (username : String) : Option Consumer :=
  store.consumers.rows.find? fun row => row.apisixUsername = username

/-- `consumer: { apisixUsername: username }` for a row of that `consumerId`. -/
def belongsTo (store : Store) (consumerId username : String) : Bool :=
  (store.consumers.find? consumerId).any fun owner => owner.apisixUsername = username

/-- Is the referenced row there? -/
def hasParent (store : Store) : (model : Model) → (parent : String) → Bool
  | .webhookDelivery, parent => (store.find? .webhookEndpoint parent).isSome
  | _, parent => (store.consumers.find? parent).isSome

/-- `onDelete: Cascade` -/
def cascade (store : Store) : (model : Model) → (id : String) → Store
  | .webhookEndpoint, id =>
      store.restrict .webhookDelivery fun delivery => delivery.endpointId ≠ id
  | _, _ => store

/-! ## Statements -/

def create (store : Store) (model : Model) (new : model.New) (id : String) (createdAt : Nat) :
    Except ServiceError (model.Row × Store) :=
  let row := model.make new id createdAt
  match inserted : (store.tables model).insert? row with
  | none => .error (.prisma "P2002")
  | some table =>
      if store.hasParent model (model.parent row) then
        .ok (row, store.put model table (id :: store.issued)
          (fun _ => List.mem_cons_of_mem id) fun other member => by
            rcases (Table.mem_insert? inserted).mp member with old | rfl
            · exact List.mem_cons_of_mem id (store.rowsIssued model other old)
            · simp [row])
      else .error (.prisma "P2003")

def update (store : Store) (model : Model) (id : String) (patch : model.Patch) :
    Except ServiceError (model.Row × Store) :=
  if model.nullsRequired patch then .error (.other "PrismaClientValidationError")
  else
    match updated : (store.tables model).update (model.apply patch) id with
    | .error .missing => .error (.prisma "P2025")
    | .error .taken => .error (.prisma "P2002")
    | .ok (row, table) =>
        .ok (row, store.put model table store.issued (fun _ known => known) fun other member => by
          obtain ⟨old, found, rfl, -⟩ := Table.update_eq_ok updated
          rcases (Table.mem_update updated).mp member with rfl | ⟨kept, -⟩
          · simpa using store.rowsIssued model old (Table.mem_of_find? found)
          · exact store.rowsIssued model other kept)

def delete (store : Store) (model : Model) (id : String) :
    Except ServiceError (model.Row × Store) :=
  match (store.tables model).find? id with
  | none => .error (.prisma "P2025")
  | some row =>
      .ok (row, (store.restrict model fun other => model.indexes.key other ≠ id).cascade model id)

/-- `prisma.consumer.upsert`, keyed by the username; `id` is drawn for a new row. -/
def upsertConsumer (store : Store) (username : String) (credentialId : Option String)
    (id : String) : Except ServiceError (Consumer × Store) :=
  match store.consumerNamed username with
  | some found =>
      match updated :
          store.consumers.update (fun row => { row with credentialId }) found.id with
      | .error _ => .error (.prisma "P2025")
      | .ok (row, table) =>
          .ok (row, { store with
            consumers := table
            consumersIssued := fun other member => by
              obtain ⟨old, present, rfl, -⟩ := Table.update_eq_ok updated
              rcases (Table.mem_update updated).mp member with rfl | ⟨kept, -⟩
              · exact store.consumersIssued old (Table.mem_of_find? present)
              · exact store.consumersIssued other kept })
  | none =>
      match inserted : store.consumers.insert? ⟨id, username, credentialId⟩ with
      | none => .error (.prisma "P2002")
      | some table =>
          .ok (⟨id, username, credentialId⟩, {
            consumers := table
            tables := store.tables
            issued := id :: store.issued
            consumersIssued := fun other member => by
              rcases (Table.mem_insert? inserted).mp member with old | rfl
              · exact List.mem_cons_of_mem id (store.consumersIssued other old)
              · exact List.mem_cons_self
            rowsIssued := fun model row member =>
              List.mem_cons_of_mem id (store.rowsIssued model row member) })

/-! ## What a statement changes -/

section Lookups

variable {store store' : Store} {model other : Model} {id key : String}

theorem find?_put_self {table : Table model.indexes} {issued : List String}
    (grown : ∀ id ∈ store.issued, id ∈ issued)
    (tableIssued : ∀ row ∈ table.rows, model.indexes.key row ∈ issued) :
    (store.put model table issued grown tableIssued).find? model key = table.find? key := by
  simp [find?, put]

theorem find?_put_of_ne (differ : other ≠ model) {table : Table model.indexes}
    {issued : List String} (grown : ∀ id ∈ store.issued, id ∈ issued)
    (tableIssued : ∀ row ∈ table.rows, model.indexes.key row ∈ issued) :
    (store.put model table issued grown tableIssued).find? other key =
      store.find? other key := by
  simp [find?, put, Function.update_of_ne differ]

theorem tables_restrict_self (keep : model.Row → Bool) :
    (store.restrict model keep).tables model = (store.tables model).restrict keep := by
  simp [restrict, put]

theorem find?_restrict_self {keep : model.Row → Bool} :
    (store.restrict model keep).find? model key = (store.find? model key).filter keep := by
  rw [restrict, find?_put_self, Table.find?_restrict]
  rfl

theorem find?_restrict_of_ne (differ : other ≠ model) {keep : model.Row → Bool} :
    (store.restrict model keep).find? other key = store.find? other key :=
  find?_put_of_ne differ _ _

theorem find?_cascade_of_ne (differ : other ≠ .webhookDelivery) :
    (store.cascade model id).find? other key = store.find? other key := by
  cases model with
  | webhookEndpoint => exact find?_restrict_of_ne differ
  | _ => rfl

theorem cascade_consumers : (store.cascade model id).consumers = store.consumers := by
  cases model <;> rfl

theorem cascade_issued : (store.cascade model id).issued = store.issued := by
  cases model <;> rfl

/-- A row that was created: under a drawn id, with its parent in place. -/
structure Created (store store' : Store) (model : Model) (new : model.New) (id : String)
    (createdAt : Nat) : Prop where
  consumers : store'.consumers = store.consumers
  issued : store'.issued = id :: store.issued
  lookup : ∀ key, store'.find? model key =
    if id = key then some (model.make new id createdAt) else store.find? model key
  others : ∀ other, other ≠ model → ∀ key, store'.find? other key = store.find? other key
  parent : store.hasParent model (model.parent (model.make new id createdAt)) = true
  free : ∀ old ∈ (store.tables model).rows,
    model.indexes.clash old (model.make new id createdAt) = false

theorem create_eq_ok {new : model.New} {createdAt : Nat} {row : model.Row}
    (created : store.create model new id createdAt = .ok (row, store')) :
    row = model.make new id createdAt ∧ Created store store' model new id createdAt := by
  unfold create at created
  simp only at created
  split at created
  · cases created
  · rename_i table inserted
    split at created
    · rename_i parent
      cases created
      refine ⟨rfl, rfl, rfl, fun key => ?_, fun other differ key => find?_put_of_ne differ _ _,
        parent, (Table.insert?_eq_some inserted).2⟩
      rw [find?_put_self, Table.find?_insert? inserted, Model.key_make]
      rfl
    · cases created

/-- A row that was patched. -/
structure Updated (store store' : Store) (model : Model) (id : String) (patch : model.Patch)
    (old : model.Row) : Prop where
  consumers : store'.consumers = store.consumers
  issued : store'.issued = store.issued
  found : store.find? model id = some old
  lookup : ∀ key, store'.find? model key =
    if id = key then some (model.apply patch old) else store.find? model key
  others : ∀ other, other ≠ model → ∀ key, store'.find? other key = store.find? other key
  free : ∀ row ∈ (store.tables model).rows, model.indexes.key row ≠ id →
    model.indexes.clash row (model.apply patch old) = false

theorem update_eq_ok {patch : model.Patch} {row : model.Row}
    (updated : store.update model id patch = .ok (row, store')) :
    ∃ old, row = model.apply patch old ∧ Updated store store' model id patch old := by
  unfold update at updated
  split at updated
  · cases updated
  · split at updated
    · cases updated
    · cases updated
    · rename_i row' table changed
      cases updated
      obtain ⟨old, found, isNew, -, free⟩ := Table.update_eq_ok changed
      refine ⟨old, isNew, rfl, rfl, found, fun key => ?_,
        fun other differ key => find?_put_of_ne differ _ _, free⟩
      rw [find?_put_self, Table.find?_update (model.key_apply patch) changed, isNew]
      rfl

/-- A refused patch gives `null` for a required column, or there is no such row, or another
row holds what the patched row would. -/
theorem update_eq_error {patch : model.Patch} {err : ServiceError}
    (refused : store.update model id patch = .error err) :
    model.nullsRequired patch = true ∨ store.find? model id = none ∨
      ∃ old, store.find? model id = some old ∧
        ∃ other ∈ (store.tables model).rows, model.indexes.key other ≠ id ∧
          model.indexes.clash other (model.apply patch old) = true := by
  unfold update at refused
  split at refused
  · rename_i nulls
    exact .inl nulls
  · split at refused
    · rename_i failed
      rcases Table.update_eq_error failed with ⟨-, absent⟩ | ⟨isTaken, -⟩
      · exact .inr (.inl absent)
      · cases isTaken
    · rename_i failed
      rcases Table.update_eq_error failed with ⟨isMissing, -⟩ | ⟨-, old, found, clashes⟩
      · cases isMissing
      · exact .inr (.inr ⟨old, found, clashes⟩)
    · cases refused

/-- A row that was deleted, for an endpoint together with its deliveries. -/
structure Deleted (store store' : Store) (model : Model) (id : String) (old : model.Row) :
    Prop where
  consumers : store'.consumers = store.consumers
  issued : store'.issued = store.issued
  found : store.find? model id = some old
  lookup : ∀ key, store'.find? model key = if id = key then none else store.find? model key
  others : ∀ other, other ≠ model → (model = .webhookEndpoint → other ≠ .webhookDelivery) →
    ∀ key, store'.find? other key = store.find? other key
  deliveries : model = .webhookEndpoint → ∀ key, store'.find? .webhookDelivery key =
    (store.find? .webhookDelivery key).filter fun delivery => delivery.endpointId ≠ id

theorem delete_eq_ok {row : model.Row} (deleted : store.delete model id = .ok (row, store')) :
    Deleted store store' model id row := by
  unfold delete at deleted
  split at deleted
  · cases deleted
  · rename_i old found
    cases deleted
    refine ⟨cascade_consumers, cascade_issued, found, fun key => ?_,
      fun other differ notCascaded key => ?_, ?_⟩
    · have restricted : (store.restrict model fun other => model.indexes.key other ≠ id).find?
          model key = if id = key then none else store.find? model key := by
        rw [find?_restrict_self]
        cases lookup : store.find? model key with
        | none => simp
        | some candidate =>
            have candidateKey := Table.key_of_find? lookup
            by_cases same : id = key
            · simp [same, candidateKey, Option.filter_some_neg]
            · simp [same, candidateKey, Ne.symm same, Option.filter_some_pos]
      rw [← restricted]
      cases model with
      | webhookEndpoint => exact find?_restrict_of_ne (by simp)
      | _ => rfl
    · cases model with
      | webhookEndpoint =>
          rw [find?_cascade_of_ne (notCascaded rfl), find?_restrict_of_ne differ]
      | _ => exact find?_restrict_of_ne differ
    · rintro rfl key
      rw [cascade, find?_restrict_self, find?_restrict_of_ne (by simp)]

end Lookups

/-- A consumer keeps its id and its username for good. -/
def KeepsConsumers (store store' : Store) : Prop :=
  ∀ id row, store.consumers.find? id = some row → ∃ row', store'.consumers.find? id = some row' ∧
    row'.apisixUsername = row.apisixUsername

theorem KeepsConsumers.of_eq {store store' : Store} (same : store'.consumers = store.consumers) :
    store.KeepsConsumers store' :=
  fun _ row found => ⟨row, by rw [same, found], rfl⟩

theorem KeepsConsumers.trans {first second third : Store} (one : first.KeepsConsumers second)
    (two : second.KeepsConsumers third) : first.KeepsConsumers third := by
  intro id row found
  obtain ⟨row', found', same⟩ := one id row found
  obtain ⟨row'', found'', same'⟩ := two id row' found'
  exact ⟨row'', found'', same'.trans same⟩

theorem belongsTo_iff {store : Store} {consumerId username : String} :
    store.belongsTo consumerId username = true ↔
      ∃ owner, store.consumers.find? consumerId = some owner ∧
        owner.apisixUsername = username := by
  simp [belongsTo, Option.any_eq_true]

theorem KeepsConsumers.belongsTo {store store' : Store} (keeps : store.KeepsConsumers store')
    {consumerId username : String} (owned : store.belongsTo consumerId username = true) :
    store'.belongsTo consumerId username = true := by
  obtain ⟨owner, found, rfl⟩ := belongsTo_iff.mp owned
  exact belongsTo_iff.mpr (keeps consumerId owner found)

theorem username_unique {store : Store} {consumerId first second : String}
    (one : store.belongsTo consumerId first = true)
    (two : store.belongsTo consumerId second = true) : first = second := by
  obtain ⟨owner, found, rfl⟩ := belongsTo_iff.mp one
  obtain ⟨other, otherFound, rfl⟩ := belongsTo_iff.mp two
  obtain rfl := Option.some.inj (found.symm.trans otherFound)
  rfl

theorem consumerNamed_eq_some_iff {store : Store} {username : String} {row : Consumer} :
    store.consumerNamed username = some row ↔
      store.consumers.find? row.id = some row ∧ row.apisixUsername = username := by
  constructor
  · intro found
    exact ⟨Table.find?_key (List.mem_of_find?_eq_some found), by simpa using List.find?_some found⟩
  · rintro ⟨present, named⟩
    have member := Table.mem_of_find? present
    cases found : store.consumerNamed username with
    | none =>
        have absent := List.find?_eq_none.mp found row member
        simp [named] at absent
    | some other =>
        have otherMem := List.mem_of_find?_eq_some found
        have otherNamed : other.apisixUsername = username := by
          simpa using List.find?_some found
        have same : other = row := Table.eq_of_clash otherMem member
          (by simp [consumerIndexes, otherNamed, named])
        rw [same]

/-- An upserted consumer: the row of that username, drawn or found. -/
structure Upserted (store store' : Store) (username : String) (row : Consumer) : Prop where
  tables : store'.tables = store.tables
  keeps : store.KeepsConsumers store'
  issued : ∀ id ∈ store.issued, id ∈ store'.issued
  named : store'.consumerNamed username = some row
  others : ∀ other : Consumer, other.apisixUsername ≠ username →
    (store'.consumers.find? other.id = some other ↔ store.consumers.find? other.id = some other)

theorem upsertConsumer_eq_ok {store store' : Store} {username id : String}
    {credentialId : Option String} {row : Consumer}
    (upserted : store.upsertConsumer username credentialId id = .ok (row, store')) :
    Upserted store store' username row := by
  unfold upsertConsumer at upserted
  split at upserted
  · rename_i found named
    obtain ⟨present, isNamed⟩ := consumerNamed_eq_some_iff.mp named
    split at upserted
    · cases upserted
    · rename_i row' table updated
      cases upserted
      have keepsKey : ∀ old : Consumer,
          consumerIndexes.key { old with credentialId } = consumerIndexes.key old := fun _ => rfl
      have lookup : ∀ other, table.find? other =
          if found.id = other then some row else store.consumers.find? other :=
        fun other => Table.find?_update keepsKey updated
      obtain ⟨old, oldFound, isNew, -, -⟩ := Table.update_eq_ok updated
      obtain rfl : old = found := Option.some.inj (oldFound.symm.trans present)
      refine ⟨rfl, fun other other' otherFound => ?_, fun _ known => known, ?_,
        fun other differ => ?_⟩
      · by_cases same : old.id = other
        · subst same
          obtain rfl := Option.some.inj (otherFound.symm.trans present)
          exact ⟨row, by simp [lookup], by rw [isNew]⟩
        · exact ⟨other', by simpa [lookup, same] using otherFound, rfl⟩
      · refine consumerNamed_eq_some_iff.mpr ⟨?_, by rw [isNew]; exact isNamed⟩
        have sameId : row.id = old.id := by rw [isNew]
        simp [lookup, sameId]
      · have isNamed' : row.apisixUsername = username := by rw [isNew]; exact isNamed
        by_cases same : old.id = other.id
        · rw [lookup, if_pos same, ← same, present]
          constructor <;> intro isOther <;> obtain rfl := Option.some.inj isOther
          · exact absurd isNamed' differ
          · exact absurd isNamed differ
        · rw [lookup, if_neg same]
  · rename_i absent
    split at upserted
    · cases upserted
    · rename_i table inserted
      cases upserted
      have lookup : ∀ other, table.find? other =
          if id = other then some ⟨id, username, credentialId⟩ else store.consumers.find? other :=
        fun other => Table.find?_insert? inserted
      refine ⟨rfl, fun other other' otherFound => ⟨other', ?_, rfl⟩,
        fun _ known => List.mem_cons_of_mem id known, ?_, fun other differ => ?_⟩
      · have differ : id ≠ other := by
          rintro rfl
          have free := (Table.insert?_eq_some inserted).2 _ (Table.mem_of_find? otherFound)
          have sameKey : other'.id = id := Table.key_of_find? otherFound
          simp [consumerIndexes, sameKey] at free
        rw [lookup, if_neg differ]
        exact otherFound
      · refine consumerNamed_eq_some_iff.mpr ⟨?_, rfl⟩
        rw [lookup, if_pos rfl]
      · by_cases same : id = other.id
        · rw [lookup, if_pos same]
          constructor
          · intro isOther
            obtain rfl := Option.some.inj isOther
            exact absurd rfl differ
          · intro found
            have free := (Table.insert?_eq_some inserted).2 _ (Table.mem_of_find? found)
            simp [consumerIndexes, same] at free
        · rw [lookup, if_neg same]

/-- The created row comes last in its table, and the other tables stay. -/
theorem tables_create {store store' : Store} {model : Model} {new : model.New} {id : String}
    {createdAt : Nat} {row : model.Row}
    (created : store.create model new id createdAt = .ok (row, store')) :
    (store'.tables model).rows = (store.tables model).rows ++ [row] ∧
      ∀ other, other ≠ model → store'.tables other = store.tables other := by
  unfold create at created
  simp only at created
  split at created
  · cases created
  · rename_i table inserted
    split at created
    · cases created
      refine ⟨?_, fun other differ => Function.update_of_ne differ _ _⟩
      have same : Function.update store.tables model table model = table :=
        Function.update_self model table store.tables
      exact (congrArg Table.rows same).trans (Table.insert?_eq_some inserted).1
    · cases created

/-- The insertion of a row that clashes with none, and whose parent is there, succeeds. -/
theorem create_isOk {store : Store} {model : Model} {new : model.New} {id : String}
    {createdAt : Nat}
    (free : ∀ old ∈ (store.tables model).rows,
      model.indexes.clash old (model.make new id createdAt) = false)
    (parent : store.hasParent model (model.parent (model.make new id createdAt)) = true) :
    ∃ store', store.create model new id createdAt = .ok (model.make new id createdAt, store') := by
  unfold create
  simp only
  split
  · rename_i refused
    obtain ⟨old, member, clash⟩ := Table.insert?_eq_none refused
    simp [free old member] at clash
  · rw [if_pos parent]
    exact ⟨_, rfl⟩

/-- The row of an upserted consumer has the drawn id or one that was there. -/
theorem belongsTo_of_upsertConsumer {store store' : Store} {username id : String}
    {credentialId : Option String} {row : Consumer}
    (upserted : store.upsertConsumer username credentialId id = .ok (row, store')) :
    row.id = id ∨ store.belongsTo row.id username = true := by
  unfold upsertConsumer at upserted
  split at upserted
  · rename_i found named
    split at upserted
    · cases upserted
    · rename_i row' table updated
      cases upserted
      obtain ⟨old, oldFound, rfl, -⟩ := Table.update_eq_ok updated
      obtain ⟨present, isNamed⟩ := consumerNamed_eq_some_iff.mp named
      obtain rfl : old = found := Option.some.inj (oldFound.symm.trans present)
      exact .inr (belongsTo_iff.mpr ⟨old, present, isNamed⟩)
  · split at upserted
    · cases upserted
    · cases upserted
      exact .inl rfl

/-- The upsert of a consumer draws no other id than that of its row. -/
theorem issued_of_upsertConsumer {store store' : Store} {username drawn : String}
    {credentialId : Option String} {row : Consumer}
    (upserted : store.upsertConsumer username credentialId drawn = .ok (row, store')) :
    ∀ id ∈ store'.issued, id ∈ store.issued ∨ id = row.id := by
  unfold upsertConsumer at upserted
  split at upserted
  · split at upserted
    · cases upserted
    · cases upserted
      exact fun id known => .inl known
  · split at upserted
    · cases upserted
    · cases upserted
      exact fun id known => (List.mem_cons.mp known).symm

/-- The upsert of a consumer succeeds. -/
theorem upsertConsumer_isOk {store : Store} {id : String} (username : String)
    (credentialId : Option String) (fresh : id ∉ store.issued) :
    ∃ result, store.upsertConsumer username credentialId id = .ok result := by
  unfold upsertConsumer
  split
  · rename_i found named
    obtain ⟨present, isNamed⟩ := consumerNamed_eq_some_iff.mp named
    split
    · rename_i refusal refused
      rcases Table.update_eq_error refused with ⟨-, absent⟩ |
        ⟨-, row, isRow, other, member, differ, clash⟩
      · rw [present] at absent
        cases absent
      · -- what clashes with the refreshed row clashed with the old one
        obtain rfl := Option.some.inj (present.symm.trans isRow)
        have same := Table.eq_of_clash member (Table.mem_of_find? present) clash
        exact absurd (by rw [same]; rfl) differ
    · exact ⟨_, rfl⟩
  · rename_i absent
    split
    · rename_i refused
      obtain ⟨old, member, clash⟩ := Table.insert?_eq_none refused
      simp only [consumerIndexes, decide_eq_true_eq] at clash
      rcases clash with sameId | sameName
      · rw [← sameId] at fresh
        exact absurd (store.consumersIssued old member) fresh
      · have free := List.find?_eq_none.mp absent old member
        simp [sameName] at free
    · exact ⟨_, rfl⟩

end Store

end CosmosPay
