import CosmosPay.Contracts.Tenancy

/-!
# Tenants

A row belongs to the consumer that it references, a delivery to the consumer of its
endpoint.  What a request has been shown to be its caller's stays its caller's, because
owners never change and no id is drawn twice.  A call that relies on this changes only
rows of the caller, and leaves those of every other consumer alone.
-/

namespace CosmosPay

open Awaiting Tables

/-! ## Owners -/

namespace Store

/-- Do the rows with this parent belong to the user? -/
def ofTenant (store : Store) (username : String) : Model → (parent : String) → Bool
  | .webhookDelivery, endpointId =>
      (store.find? .webhookEndpoint endpointId).any fun endpoint =>
        store.belongsTo endpoint.consumerId username
  | _, consumerId => store.belongsTo consumerId username

/-- The rows with this parent belong to the user, or are gone with their endpoint. -/
def Reserved (store : Store) (username : String) : Model → (parent : String) → Prop
  | .webhookDelivery, endpointId => endpointId ∈ store.issued ∧
      ∀ endpoint, store.find? .webhookEndpoint endpointId = some endpoint →
        store.belongsTo endpoint.consumerId username = true
  | _, consumerId => store.belongsTo consumerId username = true

/-- The row with this id belongs to the user, or is gone. -/
def Belongs (store : Store) (username : String) (model : Model) (id : String) : Prop :=
  id ∈ store.issued ∧ ∀ row, store.find? model id = some row →
    store.Reserved username model (model.parent row)

/-- A stored row of the user. -/
def Holds (store : Store) (username : String) (model : Model) (row : model.Row) : Prop :=
  store.find? model (model.indexes.key row) = some row ∧
    store.ofTenant username model (model.parent row) = true

/-- Every delivery has its endpoint. -/
def Referential (store : Store) : Prop :=
  ∀ id delivery, store.find? .webhookDelivery id = some delivery →
    ∃ endpoint, store.find? .webhookEndpoint delivery.endpointId = some endpoint

variable {store : Store} {username other : String} {model : Model} {parent id : String}

theorem ofTenant_of_reserved (referential : store.Referential) {row : model.Row}
    (found : store.find? model id = some row)
    (reserved : store.Reserved username model (model.parent row)) :
    store.ofTenant username model (model.parent row) = true := by
  cases model with
  | webhookDelivery =>
      obtain ⟨endpoint, endpointFound⟩ := referential id row found
      exact (Option.any_eq_true _ _).mpr
        ⟨endpoint, endpointFound, reserved.2 endpoint endpointFound⟩
  | _ => exact reserved

/-- A row has one owner. -/
theorem tenant_unique (reserved : store.Reserved username model parent)
    (owned : store.ofTenant other model parent = true) : other = username := by
  cases model with
  | webhookDelivery =>
      obtain ⟨endpoint, found, owned⟩ := (Option.any_eq_true _ _).mp owned
      exact username_unique owned (reserved.2 endpoint found)
  | _ => exact username_unique owned reserved

end Store

/-! ## Ownership stays -/

theorem WebhookEndpoint.consumerId_apply (patch : WebhookEndpointPatch) (row : WebhookEndpoint) :
    (Model.apply .webhookEndpoint patch row).consumerId = row.consumerId :=
  rfl

theorem reserved_stable (username : String) (model : Model) (parent : String) :
    Stable fun world => world.store.Reserved username model parent where
  performs performs reserved := by
    cases model with
    | webhookDelivery =>
        obtain ⟨known, owned⟩ := reserved
        refine ⟨performs.issued _ known, fun endpoint found => ?_⟩
        have endpointFound : _ = some (endpoint : Model.webhookEndpoint.Row) := found
        obtain ⟨old, oldFound, same⟩ := performs.column_eq
          WebhookEndpoint.consumerId WebhookEndpoint.consumerId_apply known endpointFound
        rw [same]
        exact performs.keepsConsumers.belongsTo (owned old oldFound)
    | _ => exact performs.keepsConsumers.belongsTo reserved
  drifts drifts reserved := by rwa [drifts.store]

theorem belongs_stable (username : String) (model : Model) (id : String) :
    Stable fun world => world.store.Belongs username model id where
  performs performs belongs := by
    obtain ⟨known, owned⟩ := belongs
    refine ⟨performs.issued _ known, fun row found => ?_⟩
    obtain ⟨old, oldFound, same⟩ :=
      performs.column_eq model.parent model.parent_apply known found
    rw [same]
    exact (reserved_stable username model _).performs performs (owned old oldFound)
  drifts drifts belongs := by rwa [drifts.store]

theorem referential_stable : Stable fun world => world.store.Referential where
  performs {before after performed} performs referential := by
    intro id delivery found
    -- the endpoint of a stored delivery was there before the call
    have endpoints : ∀ endpointId endpoint,
        before.store.find? .webhookEndpoint endpointId = some endpoint →
        (∀ old, performed ≠ ⟨.write (.delete .webhookEndpoint endpointId), .ok old⟩) →
        ∃ endpoint', after.store.find? .webhookEndpoint endpointId = some endpoint' := by
      intro endpointId endpoint endpointFound stays
      cases performs.rows .webhookEndpoint with
      | kept same => exact ⟨endpoint, (same endpointId).trans endpointFound⟩
      | created new drawn createdAt _ fresh change =>
          have differ : drawn ≠ endpointId := by
            rintro rfl
            exact fresh (Store.issued_of_find? endpointFound)
          exact ⟨endpoint, by rw [change.lookup, if_neg differ, endpointFound]⟩
      | updated key patch old _ change =>
          by_cases isKey : key = endpointId
          · exact ⟨_, by rw [change.lookup, if_pos isKey]⟩
          · exact ⟨endpoint, by rw [change.lookup, if_neg isKey, endpointFound]⟩
      | deleted key old isDelete change =>
          by_cases isKey : key = endpointId
          · subst isKey
            exact absurd isDelete (stays old)
          · exact ⟨endpoint, by rw [change.lookup, if_neg isKey, endpointFound]⟩
      | cascaded key old isDelivery => cases isDelivery
    cases performs.rows .webhookDelivery with
    | kept same =>
        obtain ⟨endpoint, endpointFound⟩ := referential id delivery ((same id).symm.trans found)
        refine endpoints _ endpoint endpointFound fun old => ?_
        rintro rfl
        have gone := (Performs.of_delete performs).deliveries rfl id
        rw [found, (same id).symm.trans found] at gone
        simp [Option.filter] at gone
    | created new drawn createdAt isCreate _ change =>
        rw [change.lookup] at found
        split at found
        · obtain rfl := Option.some.inj found
          obtain ⟨endpoint, endpointFound⟩ := Option.isSome_iff_exists.mp change.parent
          refine endpoints _ endpoint endpointFound fun old => ?_
          rintro rfl
          cases isCreate
        · obtain ⟨endpoint, endpointFound⟩ := referential id delivery found
          refine endpoints _ endpoint endpointFound fun old => ?_
          rintro rfl
          cases isCreate
    | updated key patch old isUpdate change =>
        have kept : ∃ old, before.store.find? .webhookDelivery id = some old ∧
            delivery.endpointId = old.endpointId := by
          rw [change.lookup] at found
          split at found
          · rename_i isKey
            subst isKey
            obtain rfl := Option.some.inj found
            exact ⟨old, change.found, rfl⟩
          · exact ⟨delivery, found, rfl⟩
        obtain ⟨old, oldFound, sameEndpoint⟩ := kept
        obtain ⟨endpoint, endpointFound⟩ := referential id old oldFound
        rw [sameEndpoint]
        refine endpoints _ endpoint endpointFound fun gone => ?_
        rintro rfl
        cases isUpdate
    | deleted key old isDelete change =>
        rw [change.lookup] at found
        split at found
        · cases found
        · obtain ⟨endpoint, endpointFound⟩ := referential id delivery found
          refine endpoints _ endpoint endpointFound fun gone => ?_
          rintro rfl
          cases isDelete
    | cascaded key old _ isDelete change =>
        rw [change.deliveries rfl] at found
        obtain ⟨found, keeps⟩ := Option.filter_eq_some_iff.mp found
        obtain ⟨endpoint, endpointFound⟩ := referential id delivery found
        refine endpoints _ endpoint endpointFound fun gone isOther => ?_
        rw [isDelete] at isOther
        cases isOther
        simp at keeps
  drifts drifts referential := by rwa [drifts.store]

/-! ## What a history has shown -/

/-- What the history has shown to be the user's is the user's. -/
structure Truthful (username : String) (past : History signature) (world : World) : Prop where
  enrolled : ∀ consumerId, Enrolled past username consumerId →
    world.store.belongsTo consumerId username = true
  owned : ∀ model id, Owns past model id → world.store.Belongs username model id

theorem truthful_nil (username : String) (world : World) : Truthful username [] world where
  enrolled consumerId enrolled := by
    obtain ⟨credentialId, owner, member, -⟩ := enrolled
    cases member
  owned model id owns := by
    cases owns with
    | shown _ row _ shows isKey =>
        obtain ⟨performed, member, -⟩ := shows
        cases member
    | identified _ name member => cases member

theorem truthful_stable (username : String) (past : History signature) :
    Stable (Truthful username past) where
  performs performs truthful :=
    ⟨fun consumerId enrolled =>
      (belongsTo_stable consumerId username).performs performs (truthful.enrolled _ enrolled),
      fun model id owns =>
        (belongs_stable username model id).performs performs (truthful.owned model id owns)⟩
  drifts drifts truthful :=
    ⟨fun consumerId enrolled =>
      (belongsTo_stable consumerId username).drifts drifts (truthful.enrolled _ enrolled),
      fun model id owns =>
        (belongs_stable username model id).drifts drifts (truthful.owned model id owns)⟩

/-- A row of the user, or of an endpoint of the user's that is gone. -/
def Store.Lists (store : Store) (username : String) (model : Model) (row : model.Row) : Prop :=
  store.find? model (model.indexes.key row) = some row ∧
    store.Reserved username model (model.parent row)

theorem Store.Lists.belongs {store : Store} {username : String} {model : Model} {row : model.Row}
    (lists : store.Lists username model row) :
    store.Belongs username model (model.indexes.key row) := by
  obtain ⟨found, reserved⟩ := lists
  refine ⟨issued_of_find? found, fun other otherFound => ?_⟩
  obtain rfl := Option.some.inj (found.symm.trans otherFound)
  exact reserved

theorem Store.lists_of_find? {store : Store} {username id : String} {model : Model}
    {row : model.Row} (found : store.find? model id = some row)
    (reserved : store.Reserved username model (model.parent row)) :
    store.Lists username model row := by
  obtain rfl := Table.key_of_find? found
  exact ⟨found, reserved⟩

theorem Store.Lists.of_mem {store : Store} {username : String} {model : Model} {row : model.Row}
    (member : row ∈ (store.tables model).rows)
    (reserved : store.Reserved username model (model.parent row)) :
    store.Lists username model row :=
  ⟨Table.find?_key member, reserved⟩

theorem Store.Lists.of_option {store : Store} {username : String} {model target : Model}
    {row : model.Row} {found : Option target.Row}
    (listed : (⟨model, row⟩ : AnyRow) ∈ found.toList.map (Sigma.mk target))
    (lists : ∀ shown, found = some shown → store.Lists username target shown) :
    store.Lists username model row := by
  obtain ⟨shown, isFound, same⟩ := List.mem_map.mp listed
  cases same
  exact lists row (Option.mem_toList.mp isFound)

/-- A row that a lookup by id and a condition finds. -/
theorem Store.Lists.of_filter {store : Store} {username id : String} {model target : Model}
    {row : model.Row} {keeps : target.Row → Bool}
    (listed : (⟨model, row⟩ : AnyRow) ∈
      ((store.find? target id).filter keeps).toList.map (Sigma.mk target))
    (reserved : ∀ shown, keeps shown = true →
      store.Reserved username target (target.parent shown)) :
    store.Lists username model row :=
  .of_option listed fun shown found => by
    obtain ⟨lookup, kept⟩ := Option.filter_eq_some_iff.mp found
    exact Store.lists_of_find? lookup (reserved shown kept)

/-- A row of a list that was selected by a condition. -/
theorem Store.Lists.of_list {store : Store} {username : String} {model target : Model}
    {row : model.Row} {found : List target.Row} {keeps : target.Row → Bool}
    (listed : (⟨model, row⟩ : AnyRow) ∈ found.map (Sigma.mk target))
    (selected : ∀ shown ∈ found, shown ∈ (store.tables target).rows.filter keeps)
    (reserved : ∀ shown, keeps shown = true →
      store.Reserved username target (target.parent shown)) :
    store.Lists username model row := by
  obtain ⟨shown, isFound, same⟩ := List.mem_map.mp listed
  cases same
  obtain ⟨stored, kept⟩ := List.mem_filter.mp (selected row isFound)
  exact .of_mem stored (reserved row kept)

theorem arrangeBy?_eq_some {ρ : Type} {id : ρ → String} {column : ρ → Int} {rows arranged : List ρ}
    {order : List String} (answered : arrangeBy? id column rows order = some arranged) :
    ∀ row ∈ arranged, row ∈ rows := by
  obtain ⟨isArranged, -⟩ := Option.filter_eq_some_iff.mp answered
  exact (arrange?_eq_some isArranged).2.2

section Calls

variable {deployment : Deployment} {username : String} {past : History signature}
variable {before after : World}

/-- A query that the history permits answers with rows of the user. -/
theorem lists_of_query {asked : Query} {order : List String} {answer : asked.Answer}
    (truthful : Truthful username past before) (permitted : permitsQuery username past asked)
    (answered : asked.answer order before.store = some answer) {model : Model} {row : model.Row}
    (listed : ⟨model, row⟩ ∈ asked.rows answer) : before.store.Lists username model row := by
  cases asked with
  | intentByMemo consumerId memo =>
      obtain rfl := Option.some.inj answered
      refine .of_option listed fun shown found => ?_
      have keeps : shown.consumerId = consumerId ∧ shown.memo = memo := by
        simpa using List.find?_some found
      refine .of_mem (List.mem_of_find?_eq_some found) ?_
      change before.store.belongsTo shown.consumerId username = true
      rw [keeps.1]
      exact truthful.enrolled _ permitted
  | intentOwned id name =>
      obtain rfl : name = username := permitted
      obtain rfl := Option.some.inj answered
      exact .of_filter listed fun shown owned => owned
  | intentPage name status take skip =>
      obtain rfl : name = username := permitted
      obtain ⟨arranged, isArranged, rfl⟩ := Option.map_eq_some_iff.mp answered
      refine .of_list listed (fun shown found => arrangeBy?_eq_some isArranged shown
        (List.mem_of_mem_drop (List.mem_of_mem_take found))) fun shown keeps => ?_
      exact (of_decide_eq_true keeps).1
  | customerOwned id consumerId =>
      obtain rfl := Option.some.inj answered
      refine .of_filter listed fun shown owned => ?_
      obtain rfl : shown.consumerId = consumerId := of_decide_eq_true owned
      exact truthful.enrolled _ permitted
  | productOwned id consumerId =>
      obtain rfl := Option.some.inj answered
      refine .of_filter listed fun shown owned => ?_
      obtain rfl : shown.consumerId = consumerId := of_decide_eq_true owned
      exact truthful.enrolled _ permitted
  | endpointOwned id name =>
      obtain rfl : name = username := permitted
      obtain rfl := Option.some.inj answered
      exact .of_filter listed fun shown owned => owned
  | endpoint id =>
      obtain rfl := Option.some.inj answered
      refine .of_option listed fun shown found => ?_
      exact Store.lists_of_find? found ((truthful.owned _ id permitted).2 shown found)
  | enabledEndpoints name =>
      obtain rfl : name = username := permitted
      refine .of_list listed (arrange?_eq_some answered).2.2 fun shown keeps => ?_
      exact (of_decide_eq_true keeps).2
  | endpointsNamed name =>
      obtain rfl : name = username := permitted
      exact .of_list listed (arrangeBy?_eq_some answered) fun shown keeps => keeps
  | endpointsOf consumerId =>
      refine .of_list listed (arrange?_eq_some answered).2.2 fun shown keeps => ?_
      obtain rfl : shown.consumerId = consumerId := of_decide_eq_true keeps
      exact truthful.enrolled _ permitted
  | deliveryOf id endpointId =>
      obtain rfl := Option.some.inj answered
      refine .of_filter listed fun shown isEndpoint => ?_
      obtain rfl : shown.endpointId = endpointId := of_decide_eq_true isEndpoint
      exact truthful.owned .webhookEndpoint _ permitted
  | deliveryPage endpointId status take skip =>
      obtain ⟨arranged, isArranged, rfl⟩ := Option.map_eq_some_iff.mp answered
      refine .of_list listed (fun shown found => arrangeBy?_eq_some isArranged shown
        (List.mem_of_mem_drop (List.mem_of_mem_take found))) fun shown keeps => ?_
      obtain rfl : shown.endpointId = endpointId := (of_decide_eq_true keeps).1
      exact truthful.owned .webhookEndpoint _ permitted
  | deliveriesAmong endpointIds take =>
      obtain ⟨arranged, isArranged, rfl⟩ := Option.map_eq_some_iff.mp answered
      refine .of_list listed (fun shown found => arrangeBy?_eq_some isArranged shown
        (List.mem_of_mem_take found)) fun shown keeps => ?_
      exact truthful.owned .webhookEndpoint _ (permitted _ (of_decide_eq_true keeps))
  | intentsOn consumerId network =>
      refine .of_list listed (arrangeBy?_eq_some answered) fun shown keeps => ?_
      obtain rfl : shown.consumerId = consumerId := (of_decide_eq_true keeps).1
      exact truthful.enrolled _ permitted
  | balanceIntents consumerId network =>
      refine .of_list listed (arrange?_eq_some answered).2.2 fun shown keeps => ?_
      obtain rfl : shown.consumerId = consumerId := (of_decide_eq_true keeps).1
      exact truthful.enrolled _ permitted
  | customersOf consumerId =>
      refine .of_list listed (arrangeBy?_eq_some answered) fun shown keeps => ?_
      obtain rfl : shown.consumerId = consumerId := of_decide_eq_true keeps
      exact truthful.enrolled _ permitted
  | sourcedIntents consumerId =>
      refine .of_list listed (arrange?_eq_some answered).2.2 fun shown keeps => ?_
      obtain rfl : shown.consumerId = consumerId := (of_decide_eq_true keeps).1
      exact truthful.enrolled _ permitted
  | expiredIntents now take => exact permitted.elim
  | pendingIntents take => exact permitted.elim
  | _ => cases listed

/-- A permitted call answers with rows of the user, as they were before it or are after it. -/
theorem lists_of_performs {call : Call} {answer : call.Answer}
    (truthful : Truthful username past before)
    (permitted : permitsTenant deployment username past call)
    (performs : Performs before after ⟨call, .ok answer⟩) {model : Model} {row : model.Row}
    (listed : ⟨model, row⟩ ∈ call.rows answer) :
    before.store.Lists username model row ∨ after.store.Lists username model row := by
  cases call with
  | query asked =>
      obtain ⟨-, order, answered⟩ := performs.of_query
      exact .inl (lists_of_query truthful permitted answered listed)
  | write statement =>
      cases statement with
      | upsertConsumer name credentialId => cases listed
      | create target new =>
          cases List.mem_singleton.mp listed
          obtain ⟨isTable, enrolled⟩ := permitted
          obtain ⟨id, -, rfl, change⟩ := performs.of_create
          refine .inr (Store.lists_of_find? ((change.lookup id).trans (if_pos rfl)) ?_)
          have owned := performs.keepsConsumers.belongsTo
            (truthful.enrolled _ (enrolled id before.clock))
          cases model with
          | webhookDelivery => exact absurd rfl isTable
          | _ => exact owned
      | update target id patch =>
          cases List.mem_singleton.mp listed
          obtain ⟨old, rfl, change⟩ := performs.of_update
          refine .inr (Store.lists_of_find? ((change.lookup id).trans (if_pos rfl)) ?_)
          rw [Model.parent_apply]
          exact (reserved_stable username model _).performs performs
            ((truthful.owned model id permitted).2 old change.found)
      | delete target id =>
          cases List.mem_singleton.mp listed
          have change := performs.of_delete
          exact .inl (Store.lists_of_find? change.found
            ((truthful.owned model id permitted).2 row change.found))
  | _ => cases listed

/-- A permitted call shows only what is the user's. -/
theorem Truthful.performs {performed : Performed signature}
    (truthful : Truthful username past before)
    (permitted : permitsTenant deployment username past performed.call)
    (performs : Performs before after performed) :
    Truthful username (performed :: past) after := by
  have still := (truthful_stable username past).performs performs truthful
  refine ⟨fun consumerId enrolled => ?_, fun model id owns => ?_⟩
  · obtain ⟨credentialId, owner, member, rfl⟩ := enrolled
    rcases List.mem_cons.mp member with rfl | older
    · exact Store.belongsTo_iff.mpr ⟨owner,
        Store.consumerNamed_eq_some_iff.mp performs.of_upsert.named⟩
    · exact still.enrolled _ ⟨credentialId, owner, older, rfl⟩
  · cases owns with
    | shown _ row _ shows isKey =>
        obtain ⟨shown, member, answer, isAnswer, listed⟩ := shows
        rcases List.mem_cons.mp member with isNew | older
        · subst isNew
          obtain ⟨call, result⟩ := shown
          cases result with
          | error err => cases isAnswer
          | ok value =>
              obtain rfl : value = answer := Except.ok.inj isAnswer
              rw [← isKey]
              rcases lists_of_performs truthful permitted performs listed with lists | lists
              · exact (belongs_stable username model _).performs performs lists.belongs
              · exact lists.belongs
        · exact still.owned model id (.shown model row id ⟨shown, older, answer, isAnswer, listed⟩
            isKey)
    | identified _ name member =>
        rcases List.mem_cons.mp member with rfl | older
        · obtain rfl : name = username := permitted
          obtain ⟨rfl, order, answered⟩ := performs.of_query
          obtain ⟨row, filtered, isId⟩ := Option.map_eq_some_iff.mp (Option.some.inj answered)
          obtain ⟨lookup, owned⟩ := Option.filter_eq_some_iff.mp filtered
          have lists : after.store.Lists name .paymentIntent row :=
            Store.lists_of_find? lookup owned
          rw [← isId]
          exact lists.belongs
        · exact still.owned _ id (.identified id name older)

/-! ## Everyone else -/

/-- Where a permitted call changes a row, it is the user's row. -/
theorem changes_reserved {performed : Performed signature}
    (truthful : Truthful username past before)
    (permitted : permitsTenant deployment username past performed.call)
    (performs : Performs before after performed) (model : Model) (key : String) :
    after.store.find? model key = before.store.find? model key ∨
      (∀ row, before.store.find? model key = some row →
        before.store.Reserved username model (model.parent row)) ∧
      ∀ row, after.store.find? model key = some row →
        after.store.Reserved username model (model.parent row) := by
  have later : ∀ {id : String}, Owns past model id →
      after.store.Belongs username model id := fun owns =>
    (belongs_stable username model _).performs performs (truthful.owned model _ owns)
  cases performs.rows model with
  | kept same => exact .inl (same key)
  | created new id createdAt isCreate fresh change =>
      by_cases isKey : id = key
      · subst isKey
        subst isCreate
        refine .inr ⟨fun row found => absurd (Store.issued_of_find? found) fresh,
          fun row found => ?_⟩
        have shown : (⟨model, model.make new id createdAt⟩ : AnyRow) ∈
            (Call.write (.create model new)).rows (model.make new id createdAt) :=
          List.mem_cons_self
        have lists := (lists_of_performs truthful permitted performs shown).resolve_left ?_
        · rw [change.lookup, if_pos rfl] at found
          obtain rfl := Option.some.inj found
          exact lists.2
        · rintro ⟨present, -⟩
          rw [Model.key_make] at present
          exact fresh (Store.issued_of_find? present)
      · exact .inl (by rw [change.lookup, if_neg isKey])
  | updated id patch old isUpdate change =>
      by_cases isKey : id = key
      · subst isKey
        subst isUpdate
        exact .inr ⟨(truthful.owned model id permitted).2, (later permitted).2⟩
      · exact .inl (by rw [change.lookup, if_neg isKey])
  | deleted id old isDelete change =>
      by_cases isKey : id = key
      · subst isKey
        subst isDelete
        exact .inr ⟨(truthful.owned model id permitted).2, (later permitted).2⟩
      · exact .inl (by rw [change.lookup, if_neg isKey])
  | cascaded id old isDelivery isDelete change =>
      subst isDelivery
      subst isDelete
      have deliveries := change.deliveries rfl key
      cases found : before.store.find? .webhookDelivery key with
      | none => exact .inl (by rw [deliveries, found]; rfl)
      | some delivery =>
          by_cases isEndpoint : delivery.endpointId = id
          · refine .inr ⟨fun row isRow => ?_, fun row isRow => ?_⟩
            · obtain rfl := Option.some.inj isRow
              subst isEndpoint
              exact truthful.owned .webhookEndpoint _ permitted
            · rw [deliveries, found] at isRow
              simp [Option.filter, isEndpoint] at isRow
          · exact .inl (by rw [deliveries, found]; simp [Option.filter, isEndpoint])

/-- Nothing of the user's differs between the stores. -/
structure Store.SameFor (username : String) (before after : Store) : Prop where
  consumers : ∀ row : Consumer, row.apisixUsername = username →
    (after.consumers.find? row.id = some row ↔ before.consumers.find? row.id = some row)
  rows : ∀ model row, after.Holds username model row ↔ before.Holds username model row

theorem Performs.consumers_eq {performed : Performed signature}
    (performs : Performs before after performed) :
    (∃ name credentialId row,
      performed = ⟨.write (.upsertConsumer name credentialId), .ok row⟩) ∨
        after.store.consumers = before.store.consumers := by
  by_cases effect : ∃ statement value, performed = ⟨.write statement, .ok value⟩
  · obtain ⟨statement, value, rfl⟩ := effect
    cases statement with
    | upsertConsumer name credentialId => exact .inl ⟨name, credentialId, value, rfl⟩
    | create model new =>
        obtain ⟨id, -, -, change⟩ := performs.of_create
        exact .inr change.consumers
    | update model id patch =>
        obtain ⟨old, -, change⟩ := performs.of_update
        exact .inr change.consumers
    | delete model id => exact .inr performs.of_delete.consumers
  · push Not at effect
    exact .inr (by rw [performs.store_eq effect])

/-- A permitted call leaves the consumer rows of other users alone. -/
theorem consumers_of_ne {performed : Performed signature}
    (permitted : permitsTenant deployment username past performed.call)
    (performs : Performs before after performed) {row : Consumer}
    (differ : row.apisixUsername ≠ username) :
    after.store.consumers.find? row.id = some row ↔
      before.store.consumers.find? row.id = some row := by
  rcases performs.consumers_eq with ⟨name, credentialId, upserted, rfl⟩ | same
  · obtain rfl : name = username := permitted
    exact performs.of_upsert.others row differ
  · rw [same]

variable {other : String}

theorem belongsTo_of_ne {performed : Performed signature}
    (permitted : permitsTenant deployment username past performed.call)
    (performs : Performs before after performed) (differ : other ≠ username)
    (consumerId : String) :
    after.store.belongsTo consumerId other = true ↔
      before.store.belongsTo consumerId other = true := by
  refine ⟨fun owned => ?_, performs.keepsConsumers.belongsTo⟩
  obtain ⟨owner, found, named⟩ := Store.belongsTo_iff.mp owned
  have isId : owner.id = consumerId := Table.key_of_find? found
  refine Store.belongsTo_iff.mpr ⟨owner, ?_, named⟩
  rw [← isId] at found ⊢
  exact (consumers_of_ne permitted performs (by rw [named]; exact differ)).mp found

theorem ofTenant_of_ne {performed : Performed signature}
    (truthful : Truthful username past before)
    (permitted : permitsTenant deployment username past performed.call)
    (performs : Performs before after performed) (differ : other ≠ username) (model : Model)
    (parent : String) :
    after.store.ofTenant other model parent = true ↔
      before.store.ofTenant other model parent = true := by
  cases model with
  | webhookDelivery =>
      simp only [Store.ofTenant, Option.any_eq_true]
      rcases changes_reserved truthful permitted performs .webhookEndpoint parent with
        same | ⟨reserved, reserved'⟩
      · rw [same]
        exact exists_congr fun endpoint => and_congr_right fun _ =>
          belongsTo_of_ne permitted performs differ endpoint.consumerId
      · constructor
        · rintro ⟨endpoint, found, owned⟩
          exact absurd (Store.username_unique owned (reserved' endpoint found)) differ
        · rintro ⟨endpoint, found, owned⟩
          exact absurd (Store.username_unique owned (reserved endpoint found)) differ
  | _ => exact belongsTo_of_ne permitted performs differ parent

/-- A permitted call changes nothing of other users. -/
theorem sameFor_of_performs {performed : Performed signature}
    (truthful : Truthful username past before)
    (permitted : permitsTenant deployment username past performed.call)
    (performs : Performs before after performed) (differ : other ≠ username) :
    before.store.SameFor other after.store where
  consumers row isOther :=
    consumers_of_ne permitted performs (by rw [isOther]; exact differ)
  rows model row := by
    have owners := ofTenant_of_ne truthful permitted performs differ model (model.parent row)
    rcases changes_reserved truthful permitted performs model (model.indexes.key row) with
      same | ⟨reserved, reserved'⟩
    · rw [Store.Holds, Store.Holds, same, owners]
    · constructor
      · rintro ⟨found, owned⟩
        exact absurd (Store.tenant_unique (reserved' row found) owned) differ
      · rintro ⟨found, owned⟩
        exact absurd (Store.tenant_unique (reserved row found) owned) differ

end Calls

end CosmosPay
