import CosmosPay.Awaiting.Execution
import CosmosPay.Idempotence

/-!
# What the overview counts

The summary counts the intents that its query lists, each under its status.  The query
asks for the network of the caller's key, and so does a create request, but the two read
a missing environment differently: an intent is counted where both come to the same
network.
-/

namespace CosmosPay

open Awaiting Program Tables PaymentIntents

/-! ## Totals -/

/-- The total of one status. -/
def Totals.of (totals : Totals) : PaymentIntentStatus → Nat
  | .pending => totals.pending
  | .submitted => totals.submitted
  | .succeeded => totals.succeeded
  | .failed => totals.failed
  | .cancelled => totals.cancelled
  | .expired => totals.expired

/-- The six totals add up. -/
def Totals.Partitioned (totals : Totals) : Prop :=
  totals.succeeded + totals.pending + totals.submitted + totals.failed + totals.cancelled +
    totals.expired = totals.all

/-- The totals count one intent that the other totals do not count: once among all
intents, and once under exactly one status. -/
structure Totals.CountsOneMore (totals others : Totals) : Prop where
  all : totals.all = others.all + 1
  status : ∃ status, totals.of status = others.of status + 1 ∧
    ∀ other, other ≠ status → totals.of other = others.of other

theorem byStatus_eq_countP (intents : List PaymentIntent) (status : PaymentIntentStatus) :
    Analytics.byStatus intents status =
      intents.countP fun intent => intent.status = status := by
  have counted : ∀ counts : PaymentIntentStatus → Nat,
      intents.foldl (fun counts intent =>
        Function.update counts intent.status (counts intent.status + 1)) counts status =
        counts status + intents.countP fun intent => intent.status = status := by
    induction intents with
    | nil => simp
    | cons intent intents ih =>
        intro counts
        rw [List.foldl_cons, ih, List.countP_cons]
        by_cases same : intent.status = status
        · simp [same]
          omega
        · simp [same, Function.update_of_ne (Ne.symm same)]
  simpa [Analytics.byStatus] using counted fun _ => 0

theorem totals_of (intents : List PaymentIntent) (status : PaymentIntentStatus) :
    (Analytics.totals intents).of status =
      intents.countP fun intent => intent.status = status := by
  cases status with
  | succeeded =>
      simp [Totals.of, Analytics.totals, Analytics.succeeded, List.countP_eq_length_filter]
  | _ => exact byStatus_eq_countP intents _

/-- Every intent has one of the six statuses. -/
theorem totals_partitioned (intents : List PaymentIntent) :
    (Analytics.totals intents).Partitioned := by
  have counted := totals_of intents
  have sums : intents.countP (fun intent => intent.status = .succeeded) +
      intents.countP (fun intent => intent.status = .pending) +
      intents.countP (fun intent => intent.status = .submitted) +
      intents.countP (fun intent => intent.status = .failed) +
      intents.countP (fun intent => intent.status = .cancelled) +
      intents.countP (fun intent => intent.status = .expired) = intents.length := by
    clear counted
    induction intents with
    | nil => simp
    | cons intent intents ih =>
        simp only [List.countP_cons, List.length_cons]
        cases isStatus : intent.status <;> simp <;> omega
  simp only [← counted] at sums
  exact sums

/-! ## What the summary reads -/

section Reading

variable {deployment : Deployment} {consumer : GatewayConsumer} {world : World}

/-- The intents of one consumer on one network. -/
def isListed (consumerId : String) (network : StellarNetwork) (row : PaymentIntent) : Bool :=
  row.consumerId = consumerId ∧ row.network = network

theorem resolveConsumerId_reads {choices : List Choice}
    {execution : Execution (service deployment) String} {consumerId resolved : String}
    (executed : (Analytics.resolveConsumerId consumer).execute (service deployment) choices world =
      some execution)
    (returned : execution.outcome = .ok resolved)
    (owned : world.store.belongsTo consumerId consumer.username = true) :
    resolved = consumerId ∧ execution.state.store.tables = world.store.tables := by
  obtain ⟨choice, rest, served, owner, last, rfl, performed, answered, ended, isId, rfl⟩ :=
    execute_call_ok executed returned
  obtain rfl := Option.some.inj ended
  obtain rfl := Except.ok.inj isId
  have performs : Performs world served.state ⟨_, .ok owner⟩ :=
    ⟨choice, served, performed, answered, rfl⟩
  have upserted := performs.of_upsert
  refine ⟨?_, upserted.tables⟩
  apply Store.consumer_unique _ (upserted.keeps.belongsTo owned)
  exact Store.belongsTo_iff.mpr ⟨owner, Store.consumerNamed_eq_some_iff.mp upserted.named⟩

/-- The totals of a summary are those of the consumer's intents on the network of the key. -/
theorem summary_reads {consumerId : String} {summary : Summary}
    (summarized : (Analytics.summary consumer).Returns (service deployment) world summary)
    (owned : world.store.belongsTo consumerId consumer.username = true) :
    ∃ intents, summary.totals = Analytics.totals intents ∧
      intents.Perm
        (world.store.intents.rows.filter (isListed consumerId (Analytics.network consumer))) := by
  obtain ⟨choices, execution, executed, returned⟩ := summarized
  obtain ⟨first, resolved, second, isFirst, isResolved, continued, isSummary, -⟩ :=
    execute_bind_ok executed returned
  obtain ⟨rfl, sameTables⟩ := resolveConsumerId_reads isFirst isResolved owned
  obtain ⟨choice, rest, served, intents, last, -, performed, answered, ended, isLast, -⟩ :=
    execute_call_ok continued isSummary
  refine ⟨intents, ?_, ?_⟩
  · -- what follows the listing only reads
    obtain ⟨_, _, _, now, clocked, -, -, -, timed, isClocked, -⟩ := execute_call_ok ended isLast
    obtain ⟨_, _, _, endpoints, third, -, -, -, counting, isThird, -⟩ :=
      execute_call_ok timed isClocked
    obtain ⟨_, _, fourth, -, -, counting', isFourth, -⟩ := execute_bind_ok counting isThird
    obtain ⟨_, _, fifth, -, -, finished, isFifth, -⟩ := execute_bind_ok counting' isFourth
    obtain rfl := Option.some.inj finished
    obtain rfl := Except.ok.inj isFifth
    rfl
  · have performs : Performs first.state served.state ⟨_, .ok intents⟩ :=
      ⟨choice, served, performed, answered, rfl⟩
    obtain ⟨-, order, listed⟩ := performs.of_query
    have same : first.state.store.intents = world.store.intents := congrFun sameTables _
    have perm := perm_of_arrangeBy?
      (first.state.store.intents.nodup_keys.sublist (List.filter_sublist.map _)) listed
    rwa [same] at perm

end Reading

/-! ## One intent more or less -/

section Counting

variable {deployment : Deployment}

/-- The world without one intent. -/
def World.without (world : World) (id : String) : World :=
  { world with store := world.store.restrict .paymentIntent fun row => row.id ≠ id }

theorem World.without_intents (world : World) (id : String) :
    (world.without id).store.intents =
      world.store.intents.restrict fun row => row.id ≠ id :=
  Store.tables_restrict_self _

/-- A stored intent is counted if it is on the network that the summary asks for. -/
theorem countsOneMore_iff {world : World} {intent : PaymentIntent}
    (stored : intent ∈ world.store.intents.rows) {network : StellarNetwork}
    {intents others : List PaymentIntent}
    (listed : intents.Perm
      (world.store.intents.rows.filter (isListed intent.consumerId network)))
    (othersListed : others.Perm
      ((world.without intent.id).store.intents.rows.filter
        (isListed intent.consumerId network))) :
    (Analytics.totals intents).CountsOneMore (Analytics.totals others) ↔
      intent.network = network := by
  -- how many of the listed intents have a property, with the intent and without it
  have counts : ∀ property : PaymentIntent → Bool,
      intents.countP property = others.countP property +
        if property intent = true ∧ intent.network = network then 1 else 0 := by
    intro property
    rw [listed.countP_eq, othersListed.countP_eq, List.countP_filter, List.countP_filter,
      World.without_intents]
    refine (Table.countP_restrict_ne stored _).trans ?_
    congr 1
    simp [isListed]
  have all : (Analytics.totals intents).all = (Analytics.totals others).all +
      if intent.network = network then 1 else 0 := by
    have every := counts fun _ => true
    simpa [Analytics.totals] using every
  constructor
  · intro counted
    have one := counted.all
    rw [all] at one
    by_contra differ
    simp [differ] at one
  · intro isNetwork
    refine ⟨by simp [all, isNetwork], intent.status, ?_, fun other differ => ?_⟩
    · rw [totals_of, totals_of, counts]
      simp [isNetwork]
    · rw [totals_of, totals_of, counts]
      simp [Ne.symm differ]

/-- Where creation and analytics read the network of a key alike. -/
theorem resolveNetwork_eq_iff (consumer : GatewayConsumer) :
    resolveNetwork deployment consumer = Analytics.network consumer ↔
      consumer.environment ≠ none ∨ deployment.config.network = .testnet := by
  unfold resolveNetwork Analytics.network
  cases consumer.environment with
  | none => simp
  | some environment => cases environment <;> simp

end Counting

section Runs

variable {deployment : Deployment}
variable {allows : Config (service deployment) → Label (service deployment) → Prop}
variable {config : Config (service deployment)} {state : World}

/-- The summary of a caller counts an intent that the caller has created, and that is still
there, once among all intents and once under exactly one status, if and only if the gateway
has forwarded the environment of the key, or the configured network is the test network.
The totals of the statuses always add up. -/
theorem summary_counts_created (run : Run allows (Config.initial state) config) {maker : Nat}
    {request : Request} {code : Program signature Reply} {creation : Creation}
    (issued : config.threads[maker]? = some ⟨request, code⟩)
    (isCreation : request.creation? = some creation) {intent : PaymentIntent}
    (inserted : Inserted config maker intent)
    (stored : config.state.store.find? .paymentIntent intent.id = some intent)
    {summary others : Summary}
    (summarized : (Analytics.summary creation.consumer).Returns (service deployment)
      config.state summary)
    (summarized' : (Analytics.summary creation.consumer).Returns (service deployment)
      (World.without config.state intent.id) others) :
    (summary.totals.CountsOneMore others.totals ∧ summary.totals.Partitioned) ↔
      (creation.consumer.environment ≠ none ∨ deployment.config.network = .testnet) := by
  obtain ⟨creation', made⟩ := inserted.madeBy run
  obtain ⟨request', code', issued', isCreation'⟩ := made.request
  obtain ⟨rfl, -⟩ := Thread.mk.inj (Option.some.inj (issued'.symm.trans issued))
  obtain rfl : creation' = creation := Option.some.inj (isCreation'.symm.trans isCreation)
  obtain ⟨intents, isTotals, listed⟩ := summary_reads summarized made.owner
  obtain ⟨intents', isTotals', listed'⟩ := summary_reads summarized' made.owner
  have member : intent ∈ (Store.intents (World.store config.state)).rows :=
    Table.mem_of_find? stored
  rw [isTotals, isTotals', countsOneMore_iff member listed listed', made.network,
    resolveNetwork_eq_iff]
  exact and_iff_left (totals_partitioned intents)

/-- Where all create requests are the consumer's, each stored intent is. -/
theorem exists_inserted (run : Run allows (Config.initial state) config)
    (start : state.store = .empty) {id : String} {row : PaymentIntent}
    (stored : config.state.store.find? .paymentIntent id = some row) {consumer : GatewayConsumer}
    (only : ∀ thread ∈ config.threads, ∀ creation,
      Request.creation? thread.request = some creation → creation.consumer = consumer) :
    ∃ maker request code creation, config.threads[maker]? = some ⟨request, code⟩ ∧
      request.creation? = some creation ∧ creation.consumer = consumer ∧
        Inserted config maker row := by
  obtain ⟨maker, inserted⟩ := inserted_of_stored run (by simp [start, Store.empty]) stored
  obtain ⟨creation, made⟩ := inserted.madeBy run
  obtain ⟨request, code, issued, isCreation⟩ := made.request
  exact ⟨maker, request, code, creation, issued, isCreation,
    only _ (List.mem_of_getElem? issued) creation isCreation, inserted⟩

end Runs

/-- The intent `pi` of a consumer, created by its only request. -/
def overviewed (deployment : Deployment) (consumer : GatewayConsumer) :
    Config (service deployment) :=
  after (fun _ _ => true)
    [.issue (.paymentIntents (.createPay consumer (Sample.payDto "7"))), .resume 0 (.draw "c"),
      .resume 0 .serve, .resume 0 .serve, .resume 0 (.draw "pi"), .resume 0 .serve]
    (.initial Sample.world)

/-- All create requests are the consumer's. -/
def createsOnlyFor (consumer : GatewayConsumer) {deployment : Deployment}
    (config : Config (service deployment)) : Bool :=
  config.threads.all fun thread => (Request.creation? thread.request).all fun creation =>
    creation.consumer = consumer

theorem exists_inserted_of_overviewed {deployment : Deployment} {consumer : GatewayConsumer}
    {row : PaymentIntent}
    (stored : (overviewed deployment consumer).state.store.find? .paymentIntent "pi" = some row)
    (only : createsOnlyFor consumer (overviewed deployment consumer) = true) :
    ∃ maker request code creation,
      (overviewed deployment consumer).threads[maker]? = some ⟨request, code⟩ ∧
        request.creation? = some creation ∧ creation.consumer = consumer ∧
          Inserted (overviewed deployment consumer) maker row := by
  have run : Run (fun _ _ => True) (.initial Sample.world) (overviewed deployment consumer) :=
    run_after (fun _ _ _ => trivial) _ _
  refine exists_inserted run rfl stored fun thread member creation isCreation => ?_
  have isConsumer := List.all_eq_true.mp only thread member
  simpa [isCreation] using isConsumer

/-- The choices for a summary of a consumer with one listed intent, or with none. -/
def summaryChoices (order : List String) : List Choice :=
  [.draw "x", .arrange order, .serve, .arrange []]

theorem summary_counts_created_of_testKey :
    ∃ summary others : Summary, (summary.totals.CountsOneMore others.totals ∧
      summary.totals.Partitioned) ∧ summary.totals.all = 1 := by
  let consumer := Sample.caller "alice"
  let config := overviewed Sample.deployment consumer
  have isStored : (config.state.store.find? .paymentIntent "pi").isSome = true := by
    decide +kernel
  obtain ⟨row, stored⟩ := Option.isSome_iff_exists.mp isStored
  have isId : row.id = "pi" := Table.key_of_find? stored
  have only : createsOnlyFor consumer config = true := by
    decide +kernel
  obtain ⟨maker, request, code, creation, issued, isCreation, isConsumer, inserted⟩ :=
    exists_inserted_of_overviewed stored only
  have shown : ((Analytics.summary consumer).returned? (service Sample.deployment)
      (summaryChoices ["pi"]) config.state).map (fun summary => summary.totals.all) = some 1 := by
    decide +kernel
  obtain ⟨summary, returned, isOne⟩ := Option.map_eq_some_iff.mp shown
  have isShown : ((Analytics.summary consumer).returned? (service Sample.deployment)
      (summaryChoices []) (World.without config.state "pi")).isSome = true := by
    decide +kernel
  obtain ⟨others, returned'⟩ := Option.isSome_iff_exists.mp isShown
  rw [← isConsumer] at returned returned'
  rw [← isId] at stored returned'
  have run : Run (fun _ _ => True) (.initial Sample.world) config :=
    run_after (fun _ _ _ => trivial) _ _
  refine ⟨summary, others, ?_, isOne⟩
  exact (summary_counts_created run issued isCreation inserted stored
    (returns_of_returned? returned) (returns_of_returned? returned')).mpr (.inr rfl)

/-- The deployment with the public network as its fallback. -/
def Sample.publicDeployment : Deployment :=
  { Sample.deployment with config := { Sample.deployment.config with network := .pubnet } }

/-- A caller whose environment was not forwarded gets an intent on the public network, and
a summary of the test network. -/
theorem not_summary_counts_created :
    ¬ ∀ (deployment : Deployment) (state : World) (config : Config (service deployment)),
      state.store = .empty → Run (fun _ _ => True) (.initial state) config →
      ∀ (maker : Nat) (request : Request) (code : Program signature Reply) (creation : Creation)
        (intent : PaymentIntent), config.threads[maker]? = some ⟨request, code⟩ →
        request.creation? = some creation → Inserted config maker intent →
        config.state.store.find? .paymentIntent intent.id = some intent →
        ∀ summary others : Summary,
          (Analytics.summary creation.consumer).Returns (service deployment) config.state summary →
          (Analytics.summary creation.consumer).Returns (service deployment)
            (World.without config.state intent.id) others →
          summary.totals.CountsOneMore others.totals ∧ summary.totals.Partitioned := by
  intro counts
  let consumer : GatewayConsumer := { Sample.caller "alice" with environment := none }
  let config := overviewed Sample.publicDeployment consumer
  have isStored : (config.state.store.find? .paymentIntent "pi").isSome = true := by
    decide +kernel
  obtain ⟨row, stored⟩ := Option.isSome_iff_exists.mp isStored
  have isId : row.id = "pi" := Table.key_of_find? stored
  have only : createsOnlyFor consumer config = true := by
    decide +kernel
  obtain ⟨maker, request, code, creation, issued, isCreation, isConsumer, inserted⟩ :=
    exists_inserted_of_overviewed stored only
  have shown : ((Analytics.summary consumer).returned? (service Sample.publicDeployment)
      (summaryChoices []) config.state).map (fun summary => summary.totals.all) = some 0 := by
    decide +kernel
  obtain ⟨summary, returned, isZero⟩ := Option.map_eq_some_iff.mp shown
  have isShown : ((Analytics.summary consumer).returned? (service Sample.publicDeployment)
      (summaryChoices []) (World.without config.state "pi")).isSome = true := by
    decide +kernel
  obtain ⟨others, returned'⟩ := Option.isSome_iff_exists.mp isShown
  rw [← isConsumer] at returned returned'
  rw [← isId] at stored returned'
  have run : Run (fun _ _ => True) (.initial Sample.world) config :=
    run_after (fun _ _ _ => trivial) _ _
  have counted := (counts Sample.publicDeployment Sample.world config rfl run maker request code
    creation row issued isCreation inserted stored summary others (returns_of_returned? returned)
    (returns_of_returned? returned')).1.all
  rw [isZero] at counted
  cases counted

end CosmosPay
