import CosmosPay.Enrollment
import CosmosPay.Figures
import CosmosPay.Sources

/-!
# Which payments are counted for a customer

A settlement enrolls the payer, and the statistics are collected by the source of the intent.
The two are the same account where the intent was created without a source, or with the payer
as its source.
-/

namespace CosmosPay

open Awaiting Program Tables PaymentIntents
open Text (Numbers)

section Runs

variable {deployment : Deployment}
variable {config config' : Config (service deployment)} {state : World}

/-! ## The customer of a payer -/

theorem SettlingRun.reads (run : SettlingRun (.initial state) config) {index : Nat}
    {thread : Thread (service deployment)} (lookup : config.threads[index]? = some thread) :
    Request.writesCustomers thread.request = false := by
  have admitted := SettlingRun.admitted run lookup
  cases isRequest : Thread.request thread with
  | customers request =>
      rw [isRequest] at admitted
      rcases admitted with settles | background
      · cases settles
      · cases background
  | _ => rfl

/-- A detached task that looks after a customer. -/
def Request.enrolls : Request → Bool
  | .background (.upsertCustomerFromPayment _ _) => true
  | _ => false

/-- Have all detached customer tasks come to their end? -/
def EnrollmentsFinished (config : Config (service deployment)) : Prop :=
  ∀ thread ∈ config.threads, Request.enrolls thread.request = true → thread.code.Finished

instance (config : Config (service deployment)) : Decidable (EnrollmentsFinished config) :=
  inferInstanceAs (Decidable (∀ thread ∈ config.threads, _))

/-- The database has refused no call of some customer task of the consumer for the account. -/
def EnrollmentAnswered (config : Config (service deployment)) (consumerId account : String) :
    Prop :=
  ∃ (index : Nat) (intent : PaymentIntent) (payer : Option String) (code : Promise Reply),
    config.threads[index]? = some ⟨.background (.upsertCustomerFromPayment intent payer), code⟩ ∧
    intent.consumerId = consumerId ∧ payerAccount intent payer = some account ∧
    Answered (config.past index)

theorem EnrollmentAnswered.account_ne {consumerId account : String}
    (answered : EnrollmentAnswered config consumerId account) : account ≠ "" := by
  obtain ⟨index, intent, payer, code, -, -, pays, -⟩ := answered
  exact (truthy_eq_some.mp pays).2

theorem SettlingRun.customer_kept (before : SettlingRun (.initial state) config)
    (later : SettlingRun config config') {key : String × String}
    (hasCustomer : (World.store config.state).HasCustomer key) :
    (World.store config'.state).HasCustomer key := by
  refine later.keeps (I := fun latest : Config (service deployment) =>
    (World.store latest.state).HasCustomer key) hasCustomer ?_
  intro middle latest passed kept step
  have reached : SettlingRun (.initial state) middle := before.trans passed
  rcases step_cases step with ⟨-, drifts⟩ | ⟨thread, choice, request, performed, resumes⟩
  · rwa [drifts.store]
  · obtain ⟨resume, paused, -⟩ := resumes.paused
    exact kept.resumes resumes (Run.permitted reached enrollments_fulfilled paused)
      (SettlingRun.reads reached paused)

/-- What a task has looked up or created is still there. -/
theorem SettlingRun.hasCustomer_of_known (run : SettlingRun (.initial state) config)
    {thread : Nat} {intent : PaymentIntent} {account : String}
    (known : KnowsCustomer (config.past thread) intent account) :
    (World.store config.state).HasCustomer (intent.consumerId, account) := by
  rcases known with ⟨id, member⟩ | ⟨row, member⟩
  · obtain ⟨before, after, choice, request, reached, resumes, later, -⟩ :=
      exists_resumes_of_mem run (mem_pastOf.mp member)
    refine SettlingRun.customer_kept (reached.tail resumes.step) later ?_
    obtain ⟨same, order, answered⟩ := resumes.performs.of_query
    obtain ⟨row, found, rfl⟩ := Option.map_eq_some_iff.mp (Option.some.inj answered)
    have isWanted := List.find?_some found
    simp only [Bool.decide_and, Bool.and_eq_true, decide_eq_true_eq] at isWanted
    rw [same]
    exact ⟨_, row, Table.find?_key (List.mem_of_find?_eq_some found), isWanted⟩
  · obtain ⟨before, after, choice, request, reached, resumes, later, -⟩ :=
      exists_resumes_of_mem run (mem_pastOf.mp member)
    refine SettlingRun.customer_kept (reached.tail resumes.step) later ?_
    obtain ⟨id, -, rfl, change⟩ := resumes.performs.of_create
    exact ⟨id, _, (change.lookup id).trans (if_pos rfl), rfl, rfl⟩

/-- A customer task of the consumer for the account has created a customer. -/
def EnrolledBy (config : Config (service deployment)) (consumerId account : String) : Prop :=
  ∃ (index : Nat) (intent : PaymentIntent) (payer : Option String) (code : Promise Reply),
    config.threads[index]? = some ⟨.background (.upsertCustomerFromPayment intent payer), code⟩ ∧
    intent.consumerId = consumerId ∧ payerAccount intent payer = some account ∧
    ∃ new written, ⟨.write (.create .customer new), .ok written⟩ ∈ config.past index

theorem EnrolledBy.step {allows : Config (service deployment) → Label (service deployment) → Prop}
    {consumerId account : String} (enrolled : EnrolledBy config consumerId account)
    (step : Step allows config config') : EnrolledBy config' consumerId account := by
  obtain ⟨index, intent, payer, code, lookup, isOwner, pays, new, written, member⟩ := enrolled
  obtain ⟨code', lookup'⟩ := step.request_stable lookup
  exact ⟨index, intent, payer, code', lookup', isOwner, pays, new, written,
    mem_pastOf.mpr (step_trace step (mem_pastOf.mp member))⟩

/-- The thread that creates a customer serves such a task. -/
theorem SettlingRun.enrolledBy_of_create (run : SettlingRun (.initial state) config)
    {thread : Nat} {choice : Choice} {request : Request} {new : NewCustomer} {row : Customer}
    {account : String} (resumes : Resumes (fun config label => sequential config label = true ∧
      issues Request.settles label = true) config config' thread choice request
        ⟨.write (.create .customer new), .ok row⟩) (isAccount : row.account = some account) :
    EnrolledBy config' row.consumerId account := by
  obtain ⟨resume, paused, lookup⟩ := resumes.paused
  have reads : request.writesCustomers = false := SettlingRun.reads run paused
  have permitted : permitsEnrollment request (config.past thread)
      (.write (.create .customer new)) := run.permitted enrollments_fulfilled paused
  obtain ⟨drawn, -, rfl, -⟩ := resumes.performs.of_create
  simp only [permitsEnrollment] at permitted
  split at permitted
  · obtain ⟨payerOf, isPayer, rfl, -⟩ := permitted
    obtain rfl : payerOf = account := Option.some.inj isAccount
    exact ⟨thread, _, _, _, lookup, rfl, isPayer, _, _, resumes.past_self ▸ List.mem_cons_self⟩
  · rw [permitted] at reads
    cases reads

/-- A customer with an account has been created by a task. -/
theorem SettlingRun.enrolledBy_of_stored (start : state.store = .empty)
    (run : SettlingRun (.initial state) config) {id account : String} {row : Customer}
    (found : config.state.store.find? .customer id = some row)
    (isAccount : row.account = some account) : EnrolledBy config row.consumerId account := by
  revert id row
  refine run.keeps (I := fun config : Config (service deployment) =>
    ∀ {id : String} {row : Customer}, config.state.store.find? .customer id = some row →
      row.account = some account → EnrolledBy config row.consumerId account) ?_ ?_
  · intro id row found
    rw [find?_initial start] at found
    cases found
  · intro config config' reached ih step id row found isAccount
    have carry : config.state.store.find? .customer id = some row →
        EnrolledBy config' row.consumerId account := fun old => (ih old isAccount).step step
    rcases step_cases step with ⟨-, drifts⟩ | ⟨thread, choice, request, performed, resumes⟩
    · rw [drifts.store] at found
      exact carry found
    obtain ⟨resume, paused, -⟩ := resumes.paused
    have reads : request.writesCustomers = false := SettlingRun.reads reached paused
    have permitted : permitsEnrollment request (config.past thread) performed.call :=
      reached.permitted enrollments_fulfilled paused
    rcases customers_of_resumes resumes permitted reads with
      same | ⟨new, drawn, createdAt, isCreate, -, change⟩
    · exact carry ((same id).symm.trans found)
    · rw [change.lookup] at found
      split at found
      · obtain rfl := Option.some.inj found
        subst isCreate
        exact SettlingRun.enrolledBy_of_create reached resumes isAccount
      · exact carry found

/-- When the customer tasks have finished, the accounts that have a customer are those for which
the database has refused no call of some task. -/
theorem SettlingRun.hasCustomer_iff (start : state.store = .empty)
    (run : SettlingRun (.initial state) config) (finished : EnrollmentsFinished config)
    {consumerId account : String} :
    (World.store config.state).HasCustomer (consumerId, account) ↔
      EnrollmentAnswered config consumerId account := by
  have ends : ∀ {index : Nat} {intent : PaymentIntent} {payer : Option String}
      {code : Promise Reply}, config.threads[index]? =
        some ⟨.background (.upsertCustomerFromPayment intent payer), code⟩ →
      ∃ outcome, code = .done outcome ∧
        ensuresHandover (.background (.upsertCustomerFromPayment intent payer))
          (config.past index) outcome := by
    intro index intent payer code lookup
    obtain ⟨outcome, rfl⟩ := (finished _ (List.mem_of_getElem? lookup) rfl).outcome
    exact ⟨outcome, rfl, run.ensured handovers_fulfilled lookup⟩
  constructor
  · rintro ⟨id, row, found, rfl, isAccount⟩
    obtain ⟨index, intent, payer, code, lookup, isOwner, pays, created⟩ :=
      SettlingRun.enrolledBy_of_stored start run found isAccount
    obtain ⟨outcome, -, ended⟩ := ends lookup
    exact ⟨index, intent, payer, code, lookup, isOwner, pays, ended.2 created⟩
  · rintro ⟨index, intent, payer, code, lookup, rfl, pays, answered⟩
    obtain ⟨outcome, rfl, ended⟩ := ends lookup
    have known : ensuresEnrollment (.background (.upsertCustomerFromPayment intent payer))
        (config.past index) outcome := run.ensured enrollments_fulfilled lookup
    exact SettlingRun.hasCustomer_of_known run (known (ended.1 answered) account pays)

end Runs

/-! ## What the listing counts -/

section Listing

variable {deployment : Deployment} {numbers : Numbers} {consumer : GatewayConsumer}
variable {world : World}

/-- The listing of the customers counts the intent for the account: it shows a customer with the
account, and for each one a payment and a settled payment more than without the intent. -/
structure CountedFor (deployment : Deployment) (numbers : Numbers) (consumer : GatewayConsumer)
    (world : World) (id account : String) : Prop where
  shown : ∀ page, (Customers.findAll consumer numbers).Returns (service deployment) world page →
    ∃ row ∈ page.data, row.customer.account = some account
  counted : ∀ page others,
    (Customers.findAll consumer numbers).Returns (service deployment) world page →
    (Customers.findAll consumer numbers).Returns (service deployment) (world.without id) others →
    ∀ row ∈ page.data, ∀ other ∈ others.data, other.customer = row.customer →
      row.customer.account = some account →
        row.payments = other.payments + 1 ∧ row.succeeded = other.succeeded + 1

/-- How many intents of a customer have a property, with one of the intents and without it. -/
theorem countP_paidBy {username : String} {intent : PaymentIntent}
    (stored : intent ∈ world.store.intents.rows)
    (own : world.store.belongsTo intent.consumerId username = true) {customer : Customer}
    {account : String} (isAccount : truthy customer.account = some account)
    (property : PaymentIntent → Bool) :
    (paidBy (world.store.sourcedIntentsOf username) customer).countP property =
      (paidBy ((world.without intent.id).store.sourcedIntentsOf username) customer).countP
        property + if property intent = true ∧ intent.source = some account then 1 else 0 := by
  have sameOwners : ∀ consumerId, (world.without intent.id).store.belongsTo consumerId username =
      world.store.belongsTo consumerId username := fun _ => rfl
  simp only [paidBy, isAccount, Store.sourcedIntentsOf, List.countP_filter, sameOwners,
    World.without_intents]
  refine (Table.countP_restrict_ne stored _).trans ?_
  congr 1
  by_cases isSource : intent.source = some account <;> simp [own, isSource]

theorem hasCustomer_iff_listed {consumerId username account : String}
    (own : world.store.belongsTo consumerId username = true) :
    world.store.HasCustomer (consumerId, account) ↔
      ∃ customer ∈ world.store.customersOf username, customer.account = some account := by
  constructor
  · rintro ⟨id, customer, found, isOwner, isAccount⟩
    exact ⟨customer, List.mem_filter.mpr ⟨Table.mem_of_find? found, by rw [isOwner, own]⟩,
      isAccount⟩
  · rintro ⟨customer, listed, isAccount⟩
    obtain ⟨stored, isOwn⟩ := List.mem_filter.mp listed
    exact ⟨_, customer, Table.find?_key stored, Store.consumer_unique isOwn own, isAccount⟩

/-- The counts of a customer, with a settled intent and without it. -/
theorem counts_iff (parented : world.store.Parented) {intent : PaymentIntent}
    (stored : intent ∈ world.store.intents.rows) (settled : intent.status = .succeeded)
    (own : world.store.belongsTo intent.consumerId consumer.username = true) {account : String}
    {page others : CustomerPage}
    (returned : (Customers.findAll consumer numbers).Returns (service deployment) world page)
    (returned' : (Customers.findAll consumer numbers).Returns (service deployment)
      (world.without intent.id) others)
    {row other : CustomerRow} (listed : row ∈ page.data) (listed' : other ∈ others.data)
    (same : other.customer = row.customer) (isAccount : row.customer.account = some account) :
    (row.payments = other.payments + 1 ∧ row.succeeded = other.succeeded + 1) ↔
      account ≠ "" ∧ intent.source = some account := by
  obtain ⟨-, payments, succeeded⟩ := counts_of_returned parented returned listed
  obtain ⟨-, payments', succeeded'⟩ :=
    counts_of_returned (parented_without parented intent.id) returned' listed'
  rw [same] at payments' succeeded'
  by_cases given : account = ""
  · have isNone : truthy row.customer.account = none := by
      simp [isAccount, given, truthy, Option.filter_eq_none_iff]
    simp [payments, payments', paidBy, isNone, given]
  · have isGiven : truthy row.customer.account = some account :=
      truthy_eq_some.mpr ⟨isAccount, given⟩
    have all := countP_paidBy stored own isGiven fun _ => true
    have paid := countP_paidBy stored own isGiven fun row => row.status = .succeeded
    simp only [List.countP_true, true_and] at all
    simp only [List.countP_eq_length_filter, settled, decide_true, true_and] at paid
    rw [payments, payments', succeeded, succeeded', all]
    unfold Analytics.succeeded
    rw [paid]
    by_cases isSource : intent.source = some account <;> simp [given, isSource]

/-- A settled intent is counted for its source, if there is such a customer. -/
theorem countedFor_iff (parented : world.store.Parented) {intent : PaymentIntent}
    (stored : intent ∈ world.store.intents.rows) (settled : intent.status = .succeeded)
    (own : world.store.belongsTo intent.consumerId consumer.username = true) {account : String} :
    CountedFor deployment numbers consumer world intent.id account ↔
      account ≠ "" ∧ world.store.HasCustomer (intent.consumerId, account) ∧
        intent.source = some account := by
  have without := parented_without parented intent.id
  rw [hasCustomer_iff_listed own]
  constructor
  · rintro ⟨shown, counted⟩
    have returns : ∀ {world : World}, world.store.Parented → ∃ page,
        (Customers.findAll consumer numbers).Returns (service deployment) world page :=
      exists_returns_customers
    obtain ⟨page, returned⟩ := returns parented
    obtain ⟨others, returned'⟩ := returns without
    obtain ⟨row, listed, isAccount⟩ := shown page returned
    obtain ⟨isOwn, -⟩ := counts_of_returned parented returned listed
    obtain ⟨other, listed', same⟩ := exists_row_of_returned without returned' isOwn
    obtain ⟨given, isSource⟩ := (counts_iff parented stored settled own returned returned' listed
      listed' same isAccount).mp
      (counted page others returned returned' row listed other listed' same isAccount)
    exact ⟨given, ⟨row.customer, isOwn, isAccount⟩, isSource⟩
  · rintro ⟨given, ⟨customer, isOwn, isAccount⟩, isSource⟩
    refine ⟨fun page returned => ?_, ?_⟩
    · obtain ⟨row, listed, rfl⟩ := exists_row_of_returned parented returned isOwn
      exact ⟨row, listed, isAccount⟩
    · intro page others returned returned' row listed other listed' same isAccount
      exact (counts_iff parented stored settled own returned returned' listed listed' same
        isAccount).mpr ⟨given, isSource⟩

end Listing

/-- In a sequential run of creates, validates and ticks, when all detached customer tasks have
finished, an intent that was settled with a payer is counted for the payer if and only if it was
created without a source or with the payer as its source, and the database has refused no call of
some customer task for the payer. -/
theorem settled_counted_iff {deployment : Deployment} {numbers : Numbers} {state : World}
    {config : Config (service deployment)} (start : state.store = .empty)
    (run : SettlingRun (.initial state) config) (finished : EnrollmentsFinished config)
    {intent : PaymentIntent} {payer : String} (settled : SettledWith config intent payer)
    {consumer : GatewayConsumer}
    (own : (World.store config.state).belongsTo intent.consumerId consumer.username = true) :
    CountedFor deployment numbers consumer config.state intent.id payer ↔
      CreatedFor config intent.id payer ∧
        EnrollmentAnswered config intent.consumerId payer := by
  have parented := parented_of_run run start
  obtain ⟨found, isSettled, isSource⟩ := SettlingRun.source_of_settled start run settled
  have stored : intent ∈ (World.store config.state).intents.rows := Table.mem_of_find? found
  rw [countedFor_iff parented stored isSettled own,
    SettlingRun.hasCustomer_iff start run finished]
  constructor
  · rintro ⟨given, enrolled, credited⟩
    exact ⟨(isSource given).mp credited, enrolled⟩
  · rintro ⟨created, enrolled⟩
    exact ⟨enrolled.account_ne, enrolled, (isSource enrolled.account_ne).mpr created⟩

/-- A PAY intent is created and paid, and the payer becomes a customer. -/
def enrolledPayer : Config (service Sample.deployment) :=
  after (fun config label =>
      decide (sequential config label = true ∧ issues Request.settles label = true))
    (Sample.create 0 "alice" "7" "c" "pi" ++ Sample.validate "alice" "pi" '1' ::
      Sample.serve 2 7 ++ [.resume 4 .serve, .resume 4 (.draw "k")])
    Sample.start

theorem settled_counted_iff_of_enrolledPayer :
    ∃ intent, enrolledPayer.state.store.find? .paymentIntent "pi" = some intent ∧
      CountedFor Sample.deployment .exact (Sample.caller "alice") enrolledPayer.state intent.id
        Sample.payer := by
  have run : SettlingRun Sample.start enrolledPayer :=
    run_after (fun _ _ allowed => of_decide_eq_true allowed) _ _
  have finished : EnrollmentsFinished enrolledPayer := by
    decide +kernel
  have shown : (enrolledPayer.state.store.find? .paymentIntent "pi").map
      (fun row => (row.consumerId, row.source)) = some ("c", some Sample.payer) := by
    decide +kernel
  obtain ⟨intent, found, isShown⟩ := Option.map_eq_some_iff.mp shown
  obtain ⟨isOwner, isSource⟩ := Prod.mk.inj isShown
  have isSettled : ∀ row ∈ enrolledPayer.state.store.find? .paymentIntent "pi",
      SettledWith enrolledPayer row Sample.payer := by
    decide +kernel
  have settled := isSettled intent found
  have own : (World.store enrolledPayer.state).belongsTo "c" "alice" = true := by
    decide +kernel
  -- the payer is a customer, and the intent was created without a source
  have customers : (enrolledPayer.state.store.find? .customer "k").map
      (fun row => (row.consumerId, row.account)) = some ("c", some Sample.payer) := by
    decide +kernel
  obtain ⟨customer, stored, isCustomer⟩ := Option.map_eq_some_iff.mp customers
  obtain ⟨isConsumer, isAccount⟩ := Prod.mk.inj isCustomer
  have answered : EnrollmentAnswered enrolledPayer intent.consumerId Sample.payer := by
    refine (SettlingRun.hasCustomer_iff rfl run finished).mp ⟨"k", customer, stored, ?_, isAccount⟩
    exact isConsumer.trans isOwner.symm
  obtain ⟨-, -, created⟩ := SettlingRun.source_of_settled rfl run settled
  exact ⟨intent, found, (settled_counted_iff rfl run finished settled (isOwner ▸ own)).mpr
    ⟨(created (by decide)).mp isSource, answered⟩⟩

/-- A TX intent that names another account as its source is paid. -/
def paidByAnother : Config (service Sample.deployment) :=
  after (fun config label =>
      decide (sequential config label = true ∧ issues Request.settles label = true))
    ([.issue (.paymentIntents (.createTx (Sample.caller "alice")
        ⟨Sample.destination, Sample.destination, "25.5", .undefined, .undefined, .value "7",
          .undefined, .undefined⟩)), .resume 0 (.draw "c")] ++
      Sample.serve 0 4 ++ [.resume 0 (.draw "pi"), .resume 0 .serve] ++
      Sample.validate "alice" "pi" '1' :: Sample.serve 2 7 ++
      [.resume 4 .serve, .resume 4 (.draw "k")])
    Sample.start

/-- In general the payer of a TX intent is a customer for whom it is not counted. -/
theorem not_settled_counted :
    ¬ ∀ (deployment : Deployment) (numbers : Numbers) (state : World)
      (config : Config (service deployment)) (intent : PaymentIntent) (payer : String)
      (consumer : GatewayConsumer), state.store = .empty → SettlingRun (.initial state) config →
      EnrollmentsFinished config → SettledWith config intent payer →
      (World.store config.state).belongsTo intent.consumerId consumer.username = true →
      CountedFor deployment numbers consumer config.state intent.id payer := by
  intro counted
  have run : SettlingRun Sample.start paidByAnother :=
    run_after (fun _ _ allowed => of_decide_eq_true allowed) _ _
  have finished : EnrollmentsFinished paidByAnother := by
    decide +kernel
  have shown : (paidByAnother.state.store.find? .paymentIntent "pi").map
      (fun row => (row.consumerId, row.source)) = some ("c", some Sample.destination) := by
    decide +kernel
  obtain ⟨intent, found, isShown⟩ := Option.map_eq_some_iff.mp shown
  obtain ⟨isOwner, isSource⟩ := Prod.mk.inj isShown
  have isSettled : ∀ row ∈ paidByAnother.state.store.find? .paymentIntent "pi",
      row.status = .succeeded ∧ SettledWith paidByAnother row Sample.payer := by
    decide +kernel
  obtain ⟨isSucceeded, settled⟩ := isSettled intent found
  have own : (World.store paidByAnother.state).belongsTo "c" "alice" = true := by
    decide +kernel
  have isCounted := counted Sample.deployment .exact Sample.world paidByAnother intent
    Sample.payer (Sample.caller "alice") rfl run finished settled (isOwner ▸ own)
  obtain ⟨-, -, credited⟩ := (countedFor_iff (parented_of_run run rfl)
    (Table.mem_of_find? found) isSucceeded (isOwner ▸ own)).mp isCounted
  rw [isSource] at credited
  exact absurd credited (by decide)

end CosmosPay
