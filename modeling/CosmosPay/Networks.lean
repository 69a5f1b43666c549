import CosmosPay.Figures

/-!
# Figures of one network

The overview and the balances ask for the intents of one network, so for a key of the public
network they do not depend on the caller's testnet intents.  The statistics of the customers
are collected from the intents of both networks.
-/

namespace CosmosPay

open Awaiting Program Tables Analytics
open Text (Numbers)

/-- A testnet intent of the caller. -/
def Store.isOwnTestnet (store : Store) (username : String) (row : PaymentIntent) : Bool :=
  row.network = .testnet ∧ store.belongsTo row.consumerId username

/-- Two databases differ only in the testnet intents of the caller, and in the ids that have
been drawn. -/
structure World.DiffersInTestnet (username : String) (world other : World) : Prop where
  consumers : other.store.consumers = world.store.consumers
  tables : ∀ model, model ≠ .paymentIntent → other.store.tables model = world.store.tables model
  intents : (other.store.intents.rows.filter fun row => !world.store.isOwnTestnet username row) =
    world.store.intents.rows.filter fun row => !world.store.isOwnTestnet username row
  rest : other = { world with store := other.store }

/-- The programs can return the same in both worlds. -/
def ReturnsAlike {α : Type} (deployment : Deployment) (program : Promise α)
    (world other : World) : Prop :=
  ∀ value, program.Returns (service deployment) world value ↔
    program.Returns (service deployment) other value

/-- Whatever the caller's testnet intents are, the summary, the balances and the customers'
listing return the same. -/
def IgnoresTestnet (deployment : Deployment) (numbers : Numbers) (consumer : GatewayConsumer)
    (world : World) : Prop :=
  ∀ other : World, other.store.Parented → world.DiffersInTestnet consumer.username other →
    ReturnsAlike deployment (Analytics.summary consumer numbers) world other ∧
      ReturnsAlike deployment (Analytics.balances consumer numbers) world other ∧
      ReturnsAlike deployment (Customers.findAll consumer numbers) world other

section Alike

variable {deployment : Deployment} {numbers : Numbers} {consumer : GatewayConsumer}
variable {world other : World} {username : String}

namespace World.DiffersInTestnet

variable (differs : world.DiffersInTestnet username other)

include differs

theorem belongsTo (consumerId : String) :
    other.store.belongsTo consumerId username = world.store.belongsTo consumerId username := by
  rw [Store.belongsTo, differs.consumers, Store.belongsTo]

theorem clock : other.clock = world.clock := by
  rw [differs.rest]

theorem intentsOf_pubnet :
    other.store.intentsOf username .pubnet = world.store.intentsOf username .pubnet := by
  have kept : ∀ rows : List PaymentIntent, (rows.filter fun row =>
      decide (world.store.belongsTo row.consumerId username ∧ row.network = .pubnet)) =
      (rows.filter fun row => !world.store.isOwnTestnet username row).filter fun row =>
        decide (world.store.belongsTo row.consumerId username ∧ row.network = .pubnet) := by
    intro rows
    rw [List.filter_filter]
    refine List.filter_congr fun row _ => ?_
    cases isNetwork : row.network <;> simp [Store.isOwnTestnet, isNetwork]
  simp only [Store.intentsOf, differs.belongsTo]
  rw [kept, differs.intents, ← kept]

theorem webhookHealth :
    other.store.webhookHealth username = world.store.webhookHealth username := by
  have ids : other.store.endpointIdsOf username = world.store.endpointIdsOf username := by
    simp only [Store.endpointIdsOf, differs.belongsTo, differs.tables .webhookEndpoint (by decide)]
  have counts : ∀ endpointIds status, other.store.deliveryCount endpointIds status =
      world.store.deliveryCount endpointIds status := by
    intro endpointIds status
    rw [Store.deliveryCount, differs.tables .webhookDelivery (by decide), Store.deliveryCount]
  rw [Store.webhookHealth, ids, counts, counts, Store.webhookHealth]

theorem customersOf : other.store.customersOf username = world.store.customersOf username := by
  simp only [Store.customersOf, differs.belongsTo, differs.tables .customer (by decide)]

end World.DiffersInTestnet

variable (parented : world.store.Parented) (otherParented : other.store.Parented)
  (differs : world.DiffersInTestnet consumer.username other)
  (isProd : consumer.environment = some .prod)

include parented otherParented differs isProd

theorem summary_ignores_testnet :
    ReturnsAlike deployment (Analytics.summary consumer numbers) world other := by
  intro summary
  have network : Analytics.network consumer = .pubnet := if_pos isProd
  rw [returns_summary parented, returns_summary otherParented, network,
    differs.intentsOf_pubnet, differs.clock, differs.webhookHealth]

theorem balances_ignore_testnet :
    ReturnsAlike deployment (Analytics.balances consumer numbers) world other := by
  intro page
  have network : Analytics.network consumer = .pubnet := if_pos isProd
  rw [returns_balances parented, returns_balances otherParented, network,
    differs.intentsOf_pubnet]

omit isProd in
/-- A customer without an account has no figures. -/
theorem customers_ignore_testnet
    (bare : ∀ customer ∈ world.store.customersOf consumer.username,
      truthy customer.account = none) :
    ReturnsAlike deployment (Customers.findAll consumer numbers) world other := by
  -- the rows do not depend on the intents
  have rows : ∀ customers, ListedBy (fun row : Customer => -row.createdAt)
      (world.store.customersOf consumer.username) customers → ∀ intents intents',
      customers.map (Customers.customerRow numbers intents) =
        customers.map (Customers.customerRow numbers intents') := by
    intro customers listed intents intents'
    refine List.map_congr_left fun customer member => ?_
    have none := bare customer (listed.1.mem_iff.mp member)
    simp only [Customers.customerRow, statsOf_eq, paidBy, none]
  intro page
  rw [returns_customers parented, returns_customers otherParented, differs.customersOf]
  constructor
  · rintro ⟨customers, intents, listed, -, rfl⟩
    exact ⟨customers, _, listed, List.Perm.refl _, by rw [rows customers listed intents]⟩
  · rintro ⟨customers, intents, listed, -, rfl⟩
    exact ⟨customers, _, listed, List.Perm.refl _, by rw [rows customers listed intents]⟩

end Alike

/-! ## One more testnet intent -/

section More

variable {world : World} {username : String}

/-- A memo that no intent has. -/
theorem exists_freshMemo (store : Store) :
    ∃ memo, ∀ row ∈ store.intents.rows, row.memo ≠ memo := by
  obtain ⟨memo, fresh⟩ := Infinite.exists_notMem_finset
    (store.intents.rows.map PaymentIntent.memo).toFinset
  refine ⟨memo, ?_⟩
  rintro row stored rfl
  exact fresh (List.mem_toFinset.mpr (List.mem_map_of_mem stored))

/-- There can always be one more testnet intent that an account has paid. -/
theorem exists_moreTestnet (parented : world.store.Parented) {consumerId : String}
    (owned : world.store.belongsTo consumerId username = true) (account : String) :
    ∃ (other : World) (row : PaymentIntent), other.store.Parented ∧
      world.DiffersInTestnet username other ∧ row.source = some account ∧
      other.store.sourcedIntentsOf username = world.store.sourcedIntentsOf username ++ [row] := by
  obtain ⟨id, fresh, -⟩ := exists_fresh world.store
  obtain ⟨memo, unused⟩ := exists_freshMemo world.store
  let new : NewPaymentIntent := {
    consumerId, kind := .pay, source := account, destination := "", amount := none,
    asset := "native", assetIssuer := none, memo, msg := .undefined, callback := .undefined,
    network := .testnet, status := .pending, xdr := none, uri := "" }
  let row : PaymentIntent := Model.make .paymentIntent new id world.clock
  have free : ∀ old ∈ world.store.intents.rows, intentIndexes.clash old row = false := by
    intro old member
    have otherId : old.id ≠ id := by
      rintro rfl
      exact fresh (world.store.rowsIssued .paymentIntent old member)
    have otherMemo := unused old member
    simp [intentIndexes, row, Model.make, new, otherId, otherMemo]
  obtain ⟨owner, found, isNamed⟩ := Store.belongsTo_iff.mp owned
  have parent : world.store.hasParent .paymentIntent consumerId = true :=
    Option.isSome_iff_exists.mpr ⟨owner, found⟩
  have creates : ∃ store, world.store.create .paymentIntent new id world.clock =
      .ok (row, store) := Store.create_isOk free parent
  obtain ⟨store, created⟩ := creates
  have performed : (service Sample.deployment).perform (.write (.create .paymentIntent new))
      (Choice.draw id) world = some ⟨.ok row, { world with store }, []⟩ :=
    perform_draw_ok rfl fresh created
  have performs : Performs world { world with store }
      ⟨.write (.create .paymentIntent new), .ok row⟩ := ⟨.draw id, _, performed, rfl, rfl⟩
  obtain ⟨rows, others⟩ := Store.tables_create created
  obtain ⟨-, change⟩ := Store.create_eq_ok created
  have isOwn : world.store.isOwnTestnet username row = true := by
    simp [Store.isOwnTestnet, row, Model.make, new, owned]
  have differs : world.DiffersInTestnet username { world with store } := by
    refine ⟨change.consumers, others, ?_, rfl⟩
    rw [show ({ world with store } : World).store.intents.rows = _ from rows, List.filter_append]
    simp [isOwn]
  refine ⟨{ world with store }, row, parented_stable.performs performs parented, differs, rfl, ?_⟩
  have sourced : (decide (world.store.belongsTo row.consumerId username ∧ row.source ≠ none)) =
      true := by
    simp [row, Model.make, new, owned]
  simp only [Store.sourcedIntentsOf, differs.belongsTo]
  rw [show ({ world with store } : World).store.intents.rows = _ from rows, List.filter_append,
    List.filter_cons, if_pos sourced, List.filter_nil]

end More

/-- For a key of the public network, the summary, the balances and the customers' listing
ignore the caller's testnet intents if and only if no customer of the caller has an account.
The summary and the balances always do. -/
theorem figures_ignore_testnet_iff {deployment : Deployment} {numbers : Numbers}
    {consumer : GatewayConsumer} {world : World} (parented : world.store.Parented)
    (isProd : consumer.environment = some .prod) :
    IgnoresTestnet deployment numbers consumer world ↔
      ∀ customer ∈ world.store.customersOf consumer.username,
        truthy customer.account = none := by
  constructor
  · intro ignores customer stored
    by_contra given
    obtain ⟨account, isAccount⟩ := Option.ne_none_iff_exists'.mp given
    have owned : world.store.belongsTo customer.consumerId consumer.username = true :=
      (List.mem_filter.mp stored).2
    obtain ⟨other, extra, otherParented, differs, isSource, sourced⟩ :=
      exists_moreTestnet parented owned account
    obtain ⟨-, -, alike⟩ := ignores other otherParented differs
    -- one page of both databases, with one figure for the customer
    have returns : ∃ page,
        (Customers.findAll consumer numbers).Returns (service deployment) world page :=
      exists_returns_customers parented
    obtain ⟨page, returned⟩ := returns
    have returned' := (alike page).mp returned
    obtain ⟨row, member, rfl⟩ := exists_row_of_returned parented returned stored
    obtain ⟨-, payments, -⟩ := counts_of_returned parented returned member
    obtain ⟨-, payments', -⟩ := counts_of_returned otherParented returned' member
    rw [payments', sourced] at payments
    simp [paidBy, isAccount, isSource] at payments
  · intro bare other otherParented differs
    exact ⟨summary_ignores_testnet parented otherParented differs isProd,
      balances_ignore_testnet parented otherParented differs isProd,
      customers_ignore_testnet parented otherParented differs bare⟩

/-- A database without one of the caller's testnet intents. -/
theorem differs_without {world : World} {username id : String}
    (own : ∀ row ∈ world.store.intents.rows, row.id = id →
      world.store.isOwnTestnet username row = true) :
    world.DiffersInTestnet username (world.without id) := by
  refine ⟨rfl, fun model differ => Function.update_of_ne differ _ _, ?_, rfl⟩
  rw [World.without_intents, Table.restrict, List.filter_filter]
  refine List.filter_congr fun row stored => ?_
  by_cases isId : row.id = id
  · simp [own row stored isId]
  · simp [isId]

/-- The caller with a key of the public network. -/
def Sample.prodCaller : GatewayConsumer :=
  Sample.caller "alice" .prod

theorem figures_ignore_testnet_iff_of_paidPayIntent :
    IgnoresTestnet Sample.deployment .exact Sample.prodCaller paidPayIntent.state := by
  have run : Run (fun _ _ => True) Sample.start paidPayIntent :=
    run_after (fun _ _ _ => trivial) _ _
  have none : (World.store paidPayIntent.state).customersOf "alice" = [] := by
    decide +kernel
  refine (figures_ignore_testnet_iff (parented_of_run run rfl) rfl).mpr fun customer stored => ?_
  exact absurd (none ▸ stored) List.not_mem_nil

/-- The account that has paid on the test network is a customer's. -/
def payingCustomer : Config (service Sample.deployment) :=
  after (fun _ _ => true)
    [.issue (.customers (.create (Sample.caller "alice")
        ⟨"Bob", .undefined, .undefined, .undefined, .value Sample.payer, .undefined⟩)),
      .resume 5 (.draw "x"), .resume 5 (.draw "bob")]
    paidPayIntent

/-- The customer has one payment, or none, with a key of the public network: it depends on a
testnet intent. -/
theorem not_figures_ignore_testnet :
    ¬ ∀ (deployment : Deployment) (numbers : Numbers) (consumer : GatewayConsumer)
      (world : World), world.store.Parented → consumer.environment = some .prod →
      IgnoresTestnet deployment numbers consumer world := by
  intro ignores
  have start : Run (fun _ _ => True) Sample.start paidPayIntent :=
    run_after (fun _ _ _ => trivial) _ _
  have run : Run (fun _ _ => True) Sample.start payingCustomer :=
    start.trans (run_after (fun _ _ _ => trivial) _ _)
  have parented := parented_of_run run rfl
  have own : ∀ row ∈ (World.store payingCustomer.state).intents.rows, row.id = "pi" →
      (World.store payingCustomer.state).isOwnTestnet "alice" row = true := by
    decide +kernel
  obtain ⟨-, -, alike⟩ := ignores Sample.deployment .exact Sample.prodCaller payingCustomer.state
    parented rfl _ (parented_without parented "pi") (differs_without own)
  have shown : ((Customers.findAll Sample.prodCaller).returned? (service Sample.deployment)
      [.draw "y", .arrange ["bob"], .arrange ["pi"]] payingCustomer.state).map
        (fun page => page.data.map CustomerRow.payments) = some [1] := by
    decide +kernel
  obtain ⟨page, returned, payments⟩ := Option.map_eq_some_iff.mp shown
  have isReturned := (alike page).mp (returns_of_returned? returned)
  have nothing :
      (World.without payingCustomer.state "pi").store.sourcedIntentsOf "alice" = [] := by
    decide +kernel
  obtain ⟨row, listed, isOne⟩ := List.mem_map.mp (payments ▸ List.mem_singleton_self 1)
  obtain ⟨-, isPaid, -⟩ := counts_of_returned (parented_without parented "pi") isReturned listed
  have none : (World.without payingCustomer.state "pi").store.sourcedIntentsOf
      Sample.prodCaller.username = [] := nothing
  rw [isOne, none] at isPaid
  unfold paidBy at isPaid
  split at isPaid <;> simp at isPaid

end CosmosPay
