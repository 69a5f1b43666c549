import CosmosPay.Awaiting.Execution
import CosmosPay.Atomicity
import CosmosPay.Overview
import CosmosPay.Tables.Pages

/-!
# What the aggregates return

The overview, the balances and the listing of the customers first refresh the row of their
caller, and then only read.  What they can return is determined by the caller's rows, by the
clock, and by the order in which the rows come.
-/

namespace CosmosPay

open Awaiting Program Tables
open Text (Numbers)

/-! ## Rules for calls -/

section Rules

variable {deployment : Deployment} {world : World} {α : Type} {value : α}

theorem returns_query {asked : Query} {next : asked.Answer → Promise α} :
    (Promise.query asked >>= next).Returns (service deployment) world value ↔
      ∃ order answer, asked.answer order world.store = some answer ∧
        (next answer).Returns (service deployment) world value := by
  refine returns_call_bind.trans ⟨?_, ?_⟩
  · rintro ⟨choice, answer, world', spawned, performed, continued⟩
    have performs : Performs world world' ⟨.query asked, .ok answer⟩ :=
      ⟨choice, _, performed, rfl, rfl⟩
    obtain ⟨rfl, order, answered⟩ := performs.of_query
    exact ⟨order, answer, answered, continued⟩
  · rintro ⟨order, answer, answered, continued⟩
    refine ⟨.arrange order, answer, world, [], ?_, continued⟩
    simp [service, World.perform, Choice.order, answered, World.reply]

theorem returns_now {next : Nat → Promise α} :
    (Promise.call .now >>= next).Returns (service deployment) world value ↔
      (next world.clock).Returns (service deployment) world value := by
  refine returns_call_bind.trans ⟨?_, ?_⟩
  · rintro ⟨choice, answer, world', spawned, performed, continued⟩
    obtain ⟨isAnswer, rfl, -⟩ := Served.mk.inj (World.perform_now performed)
    obtain rfl := Except.ok.inj isAnswer
    exact continued
  · exact fun continued => ⟨.serve, world.clock, world, [], rfl, continued⟩

theorem returns_upsert {username : String} {credentialId : Option String}
    {next : Consumer → Promise α} :
    (Promise.write (.upsertConsumer username credentialId) >>= next).Returns
        (service deployment) world value ↔
      ∃ id owner store, id ∉ world.store.issued ∧
        world.store.upsertConsumer username credentialId id = .ok (owner, store) ∧
          (next owner).Returns (service deployment) { world with store } value := by
  refine returns_call_bind.trans ⟨?_, ?_⟩
  · rintro ⟨choice, answer, world', spawned, performed, continued⟩
    have performs : Performs world world' ⟨.write (.upsertConsumer username credentialId),
        .ok answer⟩ := ⟨choice, _, performed, rfl, rfl⟩
    rcases performs.of_write with ⟨-, err, failed⟩ | ⟨id, owner, store, fresh, executed, same, rfl⟩
    · cases failed
    · obtain rfl := Except.ok.inj same
      exact ⟨id, answer, store, fresh rfl, executed, continued⟩
  · rintro ⟨id, owner, store, fresh, executed, continued⟩
    exact ⟨.draw id, owner, _, [], perform_draw_ok rfl fresh executed, continued⟩

end Rules

/-! ## Listings -/

section Listings

variable {ρ : Type} {id : ρ → String} {rows listed : List ρ}

theorem exists_arrange?_iff (distinct : (rows.map id).Nodup) :
    (∃ order, arrange? id rows order = some listed) ↔ listed.Perm rows := by
  simp [arrange?_eq_some_iff distinct]

/-- The rows, each once, with a column that never decreases. -/
def ListedBy (column : ρ → Int) (rows listed : List ρ) : Prop :=
  listed.Perm rows ∧ listed.Pairwise fun first second => column first ≤ column second

theorem exists_arrangeBy?_iff (distinct : (rows.map id).Nodup) {column : ρ → Int} :
    (∃ order, arrangeBy? id column rows order = some listed) ↔ ListedBy column rows listed := by
  simp [arrangeBy?, Option.filter_eq_some_iff, arrange?_eq_some_iff distinct, ListedBy]

theorem exists_listedBy (column : ρ → Int) (rows : List ρ) :
    ∃ listed, ListedBy column rows listed := by
  obtain ⟨listed, isListing⟩ := exists_listing column rows
  exact ⟨listed, isListing.perm, isListing.sorted⟩

end Listings

/-! ## The caller's rows -/

/-- Every row that refers to a consumer refers to one that is there: the foreign keys of the
schema. -/
def Store.Parented (store : Store) : Prop :=
  ∀ model, model ≠ .webhookDelivery → ∀ row ∈ (store.tables model).rows,
    (store.consumers.find? (model.parent row)).isSome = true

theorem parented_stable : Stable fun world => world.store.Parented where
  performs {before after performed} performs parented := by
    intro model refers row stored
    have remains : ∀ consumerId, (before.store.consumers.find? consumerId).isSome = true →
        (after.store.consumers.find? consumerId).isSome = true := by
      intro consumerId present
      obtain ⟨owner, found⟩ := Option.isSome_iff_exists.mp present
      obtain ⟨owner', found', -⟩ := performs.keepsConsumers consumerId owner found
      simp [found']
    have found : after.store.find? model (model.indexes.key row) = some row :=
      Table.find?_key stored
    have old : ∀ key row', before.store.find? model key = some row' →
        (after.store.consumers.find? (model.parent row')).isSome = true :=
      fun key row' found' => remains _ (parented model refers row' (Table.mem_of_find? found'))
    cases performs.rows model with
    | kept same => exact old _ row ((same _).symm.trans found)
    | created new drawn createdAt isCreate fresh change =>
        rw [change.lookup] at found
        split at found
        · obtain rfl := Option.some.inj found
          have parent := change.parent
          cases model <;> first | exact remains _ parent | exact absurd rfl refers
        · exact old _ row found
    | updated key patch given isUpdate change =>
        rw [change.lookup] at found
        split at found
        · obtain rfl := Option.some.inj found
          rw [model.parent_apply]
          exact old _ given change.found
        · exact old _ row found
    | deleted key given isDelete change =>
        rw [change.lookup] at found
        split at found
        · cases found
        · exact old _ row found
    | cascaded key given isDelivery => exact absurd isDelivery refers
  drifts drifts parented := by rwa [drifts.store]

theorem parented_of_run {deployment : Deployment}
    {allows : Config (service deployment) → Label (service deployment) → Prop}
    {config : Config (service deployment)} {state : World}
    (run : Run allows (Config.initial state) config) (start : state.store = .empty) :
    (World.store config.state).Parented := by
  have empty : state.store.Parented := by
    intro model _ row stored
    simp [start, Store.empty, Table.empty] at stored
  exact parented_stable.run run empty

theorem parented_without {world : World} (parented : world.store.Parented) (id : String) :
    (world.without id).store.Parented := by
  intro model refers row stored
  refine parented model refers row ?_
  by_cases same : model = .paymentIntent
  · subst same
    have kept : row ∈ (world.without id).store.intents.rows := stored
    rw [World.without_intents] at kept
    exact List.mem_of_mem_filter kept
  · have untouched : (world.without id).store.tables model = world.store.tables model :=
      Function.update_of_ne same _ _
    rwa [untouched] at stored

namespace Store

variable (store : Store) (username : String)

def intentsOf (network : StellarNetwork) : List PaymentIntent :=
  store.intents.rows.filter fun row =>
    store.belongsTo row.consumerId username ∧ row.network = network

/-- The intents with a source, of either network. -/
def sourcedIntentsOf : List PaymentIntent :=
  store.intents.rows.filter fun row =>
    store.belongsTo row.consumerId username ∧ row.source ≠ none

def customersOf : List Customer :=
  (store.tables .customer).rows.filter fun row => store.belongsTo row.consumerId username

def endpointIdsOf : List String :=
  ((store.tables .webhookEndpoint).rows.filter fun row =>
    store.belongsTo row.consumerId username).map WebhookEndpoint.id

def deliveryCount (endpointIds : List String) (status : Option WebhookDeliveryStatus) : Nat :=
  (store.tables .webhookDelivery).rows.countP fun row =>
    row.endpointId ∈ endpointIds ∧ (status = none ∨ status = row.status)

def webhookHealth : WebhookHealth where
  endpoints := (store.endpointIdsOf username).length
  deliveries := store.deliveryCount (store.endpointIdsOf username) none
  failedDeliveries := store.deliveryCount (store.endpointIdsOf username) (some .failed)

theorem deliveryCount_perm {endpointIds others : List String} (perm : endpointIds.Perm others)
    (status : Option WebhookDeliveryStatus) :
    store.deliveryCount endpointIds status = store.deliveryCount others status := by
  unfold deliveryCount
  simp only [perm.mem_iff]

end Store

/-- The caller has been resolved to a row: the rows that refer to it are the caller's. -/
structure Resolved (store store' : Store) (username consumerId : String) : Prop where
  tables : store'.tables = store.tables
  refers : ∀ other, (store.consumers.find? other).isSome = true →
    (other = consumerId ↔ store.belongsTo other username = true)

theorem resolved_of_upsert {store store' : Store} {username id : String}
    {credentialId : Option String} {owner : Consumer} (fresh : id ∉ store.issued)
    (upserted : store.upsertConsumer username credentialId id = .ok (owner, store')) :
    Resolved store store' username owner.id := by
  refine ⟨(Store.upsertConsumer_eq_ok upserted).tables, fun consumerId present => ⟨?_, ?_⟩⟩
  · rintro rfl
    rcases Store.belongsTo_of_upsertConsumer upserted with isDrawn | owned
    · obtain ⟨row, found⟩ := Option.isSome_iff_exists.mp present
      have isKey : row.id = owner.id := Table.key_of_find? found
      have known := store.consumersIssued row (Table.mem_of_find? found)
      rw [isKey, isDrawn] at known
      exact absurd known fresh
    · exact owned
  · intro owned
    have change := Store.upsertConsumer_eq_ok upserted
    have isOwner : store'.belongsTo owner.id username = true :=
      Store.belongsTo_iff.mpr ⟨owner, Store.consumerNamed_eq_some_iff.mp change.named⟩
    exact Store.consumer_unique (change.keeps.belongsTo owned) isOwner

namespace Resolved

variable {store store' : Store} {username consumerId : String}
variable (resolved : Resolved store store' username consumerId) (parented : store.Parented)

include resolved parented

theorem decide_refers {model : Model} (refers : model ≠ .webhookDelivery) {row : model.Row}
    (stored : row ∈ (store.tables model).rows) :
    decide (model.parent row = consumerId) = store.belongsTo (model.parent row) username := by
  rw [Bool.eq_iff_iff, decide_eq_true_eq]
  exact resolved.refers _ (parented model refers row stored)

theorem intentsOn_eq (network : StellarNetwork) :
    (store'.intents.rows.filter fun row => row.consumerId = consumerId ∧ row.network = network) =
      store.intentsOf username network := by
  rw [Store.intents, resolved.tables]
  refine List.filter_congr fun row stored => ?_
  have refers : decide (row.consumerId = consumerId) = store.belongsTo row.consumerId username :=
    resolved.decide_refers parented (by decide) stored
  rw [Bool.decide_and, refers, Bool.decide_and, Bool.decide_eq_true]

theorem sourcedIntents_eq :
    (store'.intents.rows.filter fun row => row.consumerId = consumerId ∧ row.source ≠ none) =
      store.sourcedIntentsOf username := by
  rw [Store.intents, resolved.tables]
  refine List.filter_congr fun row stored => ?_
  have refers : decide (row.consumerId = consumerId) = store.belongsTo row.consumerId username :=
    resolved.decide_refers parented (by decide) stored
  rw [Bool.decide_and, refers, Bool.decide_and, Bool.decide_eq_true]

theorem customers_eq :
    ((store'.tables .customer).rows.filter fun row => row.consumerId = consumerId) =
      store.customersOf username := by
  rw [resolved.tables]
  exact List.filter_congr fun row stored => resolved.decide_refers parented (by decide) stored

theorem endpoints_eq :
    ((store'.tables .webhookEndpoint).rows.filter fun row => row.consumerId = consumerId) =
      (store.tables .webhookEndpoint).rows.filter fun row =>
        store.belongsTo row.consumerId username := by
  rw [resolved.tables]
  exact List.filter_congr fun row stored => resolved.decide_refers parented (by decide) stored

end Resolved

section Results

variable {deployment : Deployment} {world : World} {consumer : GatewayConsumer}
variable {numbers : Numbers} {α : Type} {value : α}

/-- What follows the upsert, if it comes to the same whatever row is resolved. -/
theorem returns_resolve {next : Consumer → Promise α} {result : Prop}
    (same : ∀ owner store, Resolved world.store store consumer.username owner.id →
      ((next owner).Returns (service deployment) { world with store } value ↔ result)) :
    (Promise.write (.upsertConsumer consumer.username consumer.credentialId) >>= next).Returns
      (service deployment) world value ↔ result := by
  refine returns_upsert.trans ⟨?_, fun holds => ?_⟩
  · rintro ⟨id, owner, store, fresh, executed, continued⟩
    exact (same owner store (resolved_of_upsert fresh executed)).mp continued
  · obtain ⟨id, fresh, -⟩ := exists_fresh world.store
    obtain ⟨⟨owner, store⟩, executed⟩ :=
      Store.upsertConsumer_isOk consumer.username consumer.credentialId fresh
    exact ⟨id, owner, store, fresh, executed,
      (same owner store (resolved_of_upsert fresh executed)).mpr holds⟩

theorem returns_balances {page : BalancePage} (parented : world.store.Parented) :
    (Analytics.balances consumer numbers).Returns (service deployment) world page ↔
      ∃ intents, intents.Perm
          (world.store.intentsOf consumer.username (Analytics.network consumer)) ∧
        page = ⟨Analytics.balanceData numbers intents,
          (Analytics.balanceData numbers intents).length⟩ := by
  have isProgram : Analytics.balances consumer numbers =
      Promise.write (.upsertConsumer consumer.username consumer.credentialId) >>= fun owner =>
        Promise.query (.balanceIntents owner.id (Analytics.network consumer)) >>= fun intents =>
          pure ⟨Analytics.balanceData numbers intents,
            (Analytics.balanceData numbers intents).length⟩ :=
    sequence_assoc _ _ _
  rw [isProgram]
  refine returns_resolve fun owner store resolved => ?_
  have distinct : ((store.intents.rows.filter fun row => row.consumerId = owner.id ∧
      row.network = Analytics.network consumer).map PaymentIntent.id).Nodup :=
    store.intents.nodup_keys.sublist (List.filter_sublist.map _)
  refine returns_query.trans ?_
  rw [exists_comm]
  refine exists_congr fun intents => ?_
  rw [exists_and_right]
  refine and_congr ((exists_arrange?_iff distinct).trans ?_) returns_pure
  rw [resolved.intentsOn_eq parented]

theorem returns_countDeliveries {endpointIds : List String}
    {status : Option WebhookDeliveryStatus} {next : Nat → Promise α} :
    (Analytics.countDeliveries endpointIds status >>= next).Returns (service deployment) world
        value ↔
      (next (world.store.deliveryCount endpointIds status)).Returns (service deployment) world
        value := by
  unfold Analytics.countDeliveries
  split
  · rename_i isEmpty
    obtain rfl := List.isEmpty_iff.mp isEmpty
    have none : world.store.deliveryCount [] status = 0 := by simp [Store.deliveryCount]
    rw [none]
    exact Iff.rfl
  · refine returns_query.trans ⟨?_, fun continued => ⟨[], _, rfl, continued⟩⟩
    rintro ⟨order, count, answered, continued⟩
    obtain rfl := Option.some.inj answered
    exact continued

theorem returns_counts {endpointIds : List String} {result : Nat → Nat → α} :
    (Analytics.countDeliveries endpointIds none >>= fun deliveries =>
        Analytics.countDeliveries endpointIds (some .failed) >>= fun failed =>
          pure (result deliveries failed)).Returns (service deployment) world value ↔
      value = result (world.store.deliveryCount endpointIds none)
        (world.store.deliveryCount endpointIds (some .failed)) := by
  refine returns_countDeliveries.trans ?_
  refine returns_countDeliveries.trans ?_
  exact returns_pure

/-- The summary of listed intents. -/
def overview (numbers : Numbers) (now : Nat) (webhooks : WebhookHealth)
    (intents : List PaymentIntent) : Summary where
  totals := Analytics.totals intents numbers
  volume := Analytics.volume numbers intents
  webhooks := webhooks
  customers := (Analytics.distinctPayers intents).length
  series := Analytics.series numbers now intents
  recent := ((Analytics.succeeded intents).take 6).map Analytics.recentRow

theorem returns_summary {summary : Summary} (parented : world.store.Parented) :
    (Analytics.summary consumer numbers).Returns (service deployment) world summary ↔
      ∃ intents, ListedBy (fun row : PaymentIntent => -row.createdAt)
          (world.store.intentsOf consumer.username (Analytics.network consumer)) intents ∧
        summary = overview numbers world.clock (world.store.webhookHealth consumer.username)
          intents := by
  have isProgram : Analytics.summary consumer numbers =
      Promise.write (.upsertConsumer consumer.username consumer.credentialId) >>= fun owner =>
        Promise.query (.intentsOn owner.id (Analytics.network consumer)) >>= fun intents =>
          Promise.call .now >>= fun now =>
            Promise.query (.endpointsOf owner.id) >>= fun endpoints =>
              let endpointIds := endpoints.map WebhookEndpoint.id
              Analytics.countDeliveries endpointIds none >>= fun deliveries =>
                Analytics.countDeliveries endpointIds (some .failed) >>= fun failed =>
                  pure (overview numbers now ⟨endpoints.length, deliveries, failed⟩ intents) :=
    sequence_assoc _ _ _
  rw [isProgram]
  refine returns_resolve fun owner store resolved => ?_
  have distinct : ((store.intents.rows.filter fun row => row.consumerId = owner.id ∧
      row.network = Analytics.network consumer).map PaymentIntent.id).Nodup :=
    store.intents.nodup_keys.sublist (List.filter_sublist.map _)
  have distinctEndpoints : (((store.tables .webhookEndpoint).rows.filter fun row =>
      row.consumerId = owner.id).map WebhookEndpoint.id).Nodup :=
    (store.tables .webhookEndpoint).nodup_keys.sublist (List.filter_sublist.map _)
  -- however the endpoints come, they are as many and have the same deliveries
  have health : ∀ endpoints : List WebhookEndpoint,
      endpoints.Perm ((store.tables .webhookEndpoint).rows.filter fun row =>
        row.consumerId = owner.id) →
      (⟨endpoints.length, store.deliveryCount (endpoints.map WebhookEndpoint.id) none,
        store.deliveryCount (endpoints.map WebhookEndpoint.id) (some .failed)⟩ : WebhookHealth) =
        world.store.webhookHealth consumer.username := by
    intro endpoints perm
    rw [resolved.endpoints_eq parented] at perm
    have ids : (endpoints.map WebhookEndpoint.id).Perm
        (world.store.endpointIdsOf consumer.username) := perm.map WebhookEndpoint.id
    have sameCount : ∀ endpointIds status, store.deliveryCount endpointIds status =
        world.store.deliveryCount endpointIds status := by
      intro endpointIds status
      rw [Store.deliveryCount, resolved.tables, Store.deliveryCount]
    have length : endpoints.length = (world.store.endpointIdsOf consumer.username).length := by
      rw [← ids.length_eq, List.length_map]
    rw [sameCount, sameCount, Store.deliveryCount_perm _ ids, Store.deliveryCount_perm _ ids,
      length, Store.webhookHealth]
  refine returns_query.trans ?_
  rw [exists_comm]
  refine exists_congr fun intents => ?_
  rw [exists_and_right]
  refine and_congr ((exists_arrangeBy?_iff distinct).trans ?_) ?_
  · rw [resolved.intentsOn_eq parented]
  refine returns_now.trans (returns_query.trans ?_)
  constructor
  · rintro ⟨order, endpoints, answered, counted⟩
    have perm := (exists_arrange?_iff distinctEndpoints).mp ⟨order, answered⟩
    exact (returns_counts.mp counted).trans
      (congrArg (overview numbers world.clock · intents) (health _ perm))
  · rintro rfl
    obtain ⟨order, answered⟩ := (exists_arrange?_iff distinctEndpoints).mpr (List.Perm.refl _)
    refine ⟨order, _, answered, returns_counts.mpr ?_⟩
    exact congrArg (overview numbers world.clock · intents) (health _ (List.Perm.refl _)).symm

/-- The rows of the customers, one for each. -/
theorem returns_customers {page : CustomerPage} (parented : world.store.Parented) :
    (Customers.findAll consumer numbers).Returns (service deployment) world page ↔
      ∃ customers intents,
        ListedBy (fun row : Customer => -row.createdAt)
          (world.store.customersOf consumer.username) customers ∧
        intents.Perm (world.store.sourcedIntentsOf consumer.username) ∧
        page = ⟨customers.map (Customers.customerRow numbers intents),
          (customers.map (Customers.customerRow numbers intents)).length⟩ := by
  refine returns_resolve fun owner store resolved => ?_
  have distinct : ((store.intents.rows.filter fun row => row.consumerId = owner.id ∧
      row.source ≠ none).map PaymentIntent.id).Nodup :=
    store.intents.nodup_keys.sublist (List.filter_sublist.map _)
  have distinctCustomers : (((store.tables .customer).rows.filter fun row =>
      row.consumerId = owner.id).map Customer.id).Nodup :=
    (store.tables .customer).nodup_keys.sublist (List.filter_sublist.map _)
  refine returns_query.trans ?_
  rw [exists_comm]
  refine exists_congr fun customers => ?_
  rw [exists_and_right, exists_and_left]
  refine and_congr ((exists_arrangeBy?_iff distinctCustomers).trans ?_) ?_
  · rw [resolved.customers_eq parented]
  refine returns_query.trans ?_
  rw [exists_comm]
  refine exists_congr fun intents => ?_
  rw [exists_and_right]
  refine and_congr ((exists_arrange?_iff distinct).trans ?_) returns_pure
  rw [resolved.sourcedIntents_eq parented]

theorem exists_returns_customers (parented : world.store.Parented) :
    ∃ page, (Customers.findAll consumer numbers).Returns (service deployment) world page := by
  obtain ⟨customers, listed⟩ := exists_listedBy (fun row : Customer => -row.createdAt)
    (world.store.customersOf consumer.username)
  exact ⟨_, (returns_customers parented).mpr ⟨customers, _, listed, List.Perm.refl _, rfl⟩⟩

end Results

end CosmosPay
