import CosmosPay.Contracts.Enrollment
import CosmosPay.Evolution

/-!
# One customer for a payer

The task of a settlement looks the payer up and creates a customer in two round trips, and
no unique key stands behind it.  Where no creation is overtaken by another one since its
lookup, there is at most one automatic customer for a consumer and an account.
-/

namespace CosmosPay

open Awaiting Tables PaymentIntents

/-- The consumer and the account of a customer that a call has created. -/
def Call.enrolls : (call : Call) → call.Answer → Option (String × String)
  | .write (.create .customer _), row => row.account.map fun account => (row.consumerId, account)
  | _, _ => none

def enrolled (performed : Performed signature) : Option (String × String) :=
  match performed.answer with
  | .ok answer => performed.call.enrolls answer
  | .error _ => none

/-- The consumer and the account that a call has looked up. -/
def soughtCustomer (performed : Performed signature) : Option (String × String) :=
  match performed.call with
  | .query (.customerIdByAccount consumerId account) => some (consumerId, account)
  | _ => none

/-- How many customers with this consumer and account were created. -/
def enrollments? (key : String × String) (trace : List (Entry signature)) : Nat :=
  trace.countP fun entry => enrolled entry.performed = some key

/-- A customer with this consumer and account is stored. -/
def Store.HasCustomer (store : Store) (key : String × String) : Prop :=
  ∃ id row, store.find? .customer id = some row ∧ row.consumerId = key.1 ∧
    row.account = some key.2

section Runs

variable {deployment : Deployment}

/-- The customers that were created since the thread last looked one up. -/
def enrolledSince (config : Config (service deployment)) (thread : Nat) :
    List (String × String) :=
  (since thread (fun performed => (soughtCustomer performed).isSome) config.trace).filterMap
    fun entry => enrolled entry.performed

/-- The thread that creates a customer in a step, and the customer. -/
def enrolling (config : Config (service deployment)) :
    Label (service deployment) → Option (Nat × NewCustomer)
  | .resume thread (Choice.draw _) =>
      match config.threads[thread]? with
      | some ⟨_, .await (.write (.create .customer new)) _⟩ => some (thread, new)
      | _ => none
  | _ => none

/-- No customer is created when another one with the same consumer and account was created
since the thread looked for it. -/
def Unrivalled (config : Config (service deployment)) (label : Label (service deployment)) : Prop :=
  ∀ sent ∈ enrolling config label, ∀ account ∈ sent.2.account,
    (sent.2.consumerId, account) ∉ enrolledSince config sent.1

instance (config : Config (service deployment)) (label : Label (service deployment)) :
    Decidable (Unrivalled config label) :=
  inferInstanceAs (Decidable (∀ sent ∈ enrolling config label, _))

/-- Runs without manual customer writes in which no creation is overtaken. -/
abbrev UnrivalledRun : Config (service deployment) → Config (service deployment) → Prop :=
  Run fun config label =>
    issues (fun request => !request.writesCustomers) label = true ∧ Unrivalled config label

variable {config config' : Config (service deployment)} {state : World}

/-- What holds of the customers in such a run. -/
structure EnrolledOnce (config : Config (service deployment)) : Prop where
  once : ∀ key, enrollments? key config.trace ≤ 1
  stored : ∀ key, 0 < enrollments? key config.trace →
    (World.store config.state).HasCustomer key
  missed : ∀ newer older thread consumerId account,
    config.trace = newer ++ ⟨thread, ⟨.query (.customerIdByAccount consumerId account),
      .ok none⟩⟩ :: older → enrollments? (consumerId, account) older = 0

theorem enrolledOnce_initial :
    EnrolledOnce (Config.initial state : Config (service deployment)) :=
  ⟨fun _ => by simp [enrollments?, Config.initial],
    fun _ positive => by simp [enrollments?, Config.initial] at positive,
    fun _ _ _ _ _ split => by simp [Config.initial] at split⟩

theorem enrollments?_cons (key : String × String) (entry : Entry signature)
    (trace : List (Entry signature)) :
    enrollments? key (entry :: trace) =
      enrollments? key trace + if enrolled entry.performed = some key then 1 else 0 := by
  simp [enrollments?, List.countP_cons]

/-- Where callers write no customers, a step creates one or leaves them as they are. -/
theorem customers_of_resumes
    {allows : Config (service deployment) → Label (service deployment) → Prop} {thread : Nat}
    {choice : Choice} {request : Request} {performed : Performed signature}
    (resumes : Resumes allows config config' thread choice request performed)
    (permitted : permitsEnrollment request (config.past thread) performed.call)
    (reads : request.writesCustomers = false) :
    (∀ id, config'.state.store.find? .customer id = config.state.store.find? .customer id) ∨
      ∃ new drawn createdAt, performed =
          ⟨.write (.create .customer new), .ok (Model.make .customer new drawn createdAt)⟩ ∧
        drawn ∉ config.state.store.issued ∧
        Store.Created config.state.store config'.state.store .customer new drawn createdAt := by
  cases resumes.performs.rows .customer with
  | kept same => exact .inl same
  | created new drawn createdAt isCreate fresh change =>
      exact .inr ⟨new, drawn, createdAt, isCreate, fresh, change⟩
  | updated key patch old isUpdate =>
      subst isUpdate
      rw [show request.writesCustomers = true from permitted] at reads
      cases reads
  | deleted key old isDelete =>
      subst isDelete
      rw [show request.writesCustomers = true from permitted] at reads
      cases reads
  | cascaded key old isDelivery => cases isDelivery

/-- A stored customer stays where callers write none. -/
theorem Store.HasCustomer.resumes
    {allows : Config (service deployment) → Label (service deployment) → Prop}
    {key : String × String} {thread : Nat} {choice : Choice} {request : Request}
    {performed : Performed signature} (hasCustomer : (World.store config.state).HasCustomer key)
    (resumes : Resumes allows config config' thread choice request performed)
    (permitted : permitsEnrollment request (config.past thread) performed.call)
    (reads : request.writesCustomers = false) : (World.store config'.state).HasCustomer key := by
  obtain ⟨id, row, found, isKey⟩ := hasCustomer
  refine ⟨id, row, ?_, isKey⟩
  rcases customers_of_resumes resumes permitted reads with
    same | ⟨new, drawn, createdAt, -, fresh, change⟩
  · exact (same id).trans found
  · rw [change.lookup, if_neg, found]
    rintro rfl
    exact fresh (Store.issued_of_find? found)

/-- A lookup of a customer who is stored finds one. -/
theorem Performs.not_none_of_customer {before after : World} {id consumerId account : String}
    {row : Customer} (found : before.store.find? .customer id = some row)
    (isOwner : row.consumerId = consumerId) (isAccount : row.account = some account) :
    ¬ Performs before after ⟨.query (.customerIdByAccount consumerId account), .ok none⟩ := by
  intro performs
  obtain ⟨-, order, answered⟩ := performs.of_query
  have missed := Option.map_eq_none_iff.mp (Option.some.inj answered)
  have absent := List.find?_eq_none.mp missed row (Table.mem_of_find? found)
  simp [isOwner, isAccount] at absent

/-- Without manual writes a customer is created by the task of a settlement, which has found
none. -/
theorem exists_lookup_of_create
    {allows : Config (service deployment) → Label (service deployment) → Prop}
    (run : Run allows (.initial state) config) {thread : Nat} {request : Request}
    {new : NewCustomer}
    {resume : signature.Result (.write (.create .customer new)) → Promise Reply}
    (paused : config.threads[thread]? =
      some ⟨request, .await (.write (.create .customer new)) resume⟩)
    (reads : request.writesCustomers = false) :
    ∃ account, new.account = some account ∧ config.past thread =
      [⟨.query (.customerIdByAccount new.consumerId account), .ok none⟩] := by
  have permitted : permitsEnrollment request (config.past thread)
      (.write (.create .customer new)) := run.permitted enrollments_fulfilled paused
  simp only [permitsEnrollment] at permitted
  split at permitted
  · obtain ⟨account, -, rfl, past⟩ := permitted
    exact ⟨account, rfl, past⟩
  · rw [permitted] at reads
    cases reads

/-- The creation that a step sends. -/
theorem Resumes.enrolling_eq
    {allows : Config (service deployment) → Label (service deployment) → Prop} {thread : Nat}
    {choice : Choice} {request : Request} {new : NewCustomer} {row : Customer}
    (resumes : Resumes allows config config' thread choice request
      ⟨.write (.create .customer new), .ok row⟩) :
    enrolling config (.resume thread choice) = some (thread, new) := by
  obtain ⟨resume, paused, -⟩ := resumes.paused
  obtain ⟨served, performed, isAnswer, -⟩ := resumes.answered
  cases choice with
  | draw id => simp only [enrolling, paused]
  | reject =>
      obtain rfl := Option.some.inj performed
      cases isAnswer
  | _ => cases performed

/-- A creation that is not overtaken is the first one. -/
theorem EnrolledOnce.first (run : UnrivalledRun (.initial state) config)
    (enrolledOnce : EnrolledOnce config) {thread : Nat} {choice : Choice} {request : Request}
    {new : NewCustomer} {row : Customer} {key : String × String}
    (resumes : Resumes (fun config label => issues (fun request => !request.writesCustomers)
      label = true ∧ Unrivalled config label) config config' thread choice request
      ⟨.write (.create .customer new), .ok row⟩)
    (reads : request.writesCustomers = false)
    (isKey : enrolled ⟨.write (.create .customer new), .ok row⟩ = some key) :
    enrollments? key config.trace = 0 := by
  obtain ⟨resume, paused, -⟩ := resumes.paused
  obtain ⟨account, isAccount, past⟩ := exists_lookup_of_create run paused reads
  obtain ⟨id, -, rfl, -⟩ := resumes.performs.of_create
  obtain rfl : (new.consumerId, account) = key := by
    simpa [enrolled, Call.enrolls, Model.make, isAccount] using isKey
  have last : (config.past thread).findSome? soughtCustomer =
      some (new.consumerId, account) := by
    rw [past]
    rfl
  obtain ⟨performed, older, -, split⟩ := exists_split_of_findSome? last
  have member : performed ∈ config.past thread := by
    rw [Config.past, mem_pastOf, split]
    exact List.mem_append_right _ List.mem_cons_self
  rw [past, List.mem_singleton] at member
  subst member
  -- none before the lookup, which found none, and none since
  have before := enrolledOnce.missed _ _ _ _ _ split
  have since : enrollments? (new.consumerId, account)
      (since thread (fun performed => (soughtCustomer performed).isSome) config.trace) = 0 := by
    refine List.countP_eq_zero.mpr fun entry recent isSame => ?_
    refine resumes.allowed.2 _ resumes.enrolling_eq account isAccount ?_
    exact List.mem_filterMap.mpr ⟨entry, recent, of_decide_eq_true isSame⟩
  rw [split]
  simp only [enrollments?, List.countP_append] at since before ⊢
  rw [since, List.countP_cons, before]
  rfl

theorem EnrolledOnce.resume (run : UnrivalledRun (.initial state) config)
    (enrolledOnce : EnrolledOnce config) {thread : Nat} {choice : Choice} {request : Request}
    {performed : Performed signature}
    (resumes : Resumes (fun config label => issues (fun request => !request.writesCustomers)
      label = true ∧ Unrivalled config label) config config' thread choice request performed)
    (reads : request.writesCustomers = false) : EnrolledOnce config' := by
  obtain ⟨resume, paused, -⟩ := resumes.paused
  have permitted : permitsEnrollment request (config.past thread) performed.call :=
    run.permitted enrollments_fulfilled paused
  have created : ∀ key, enrolled performed = some key →
      enrollments? key config.trace = 0 ∧ (World.store config'.state).HasCustomer key := by
    intro key isKey
    obtain ⟨call, answer⟩ := performed
    cases answer with
    | error err => cases isKey
    | ok value =>
        have enrolls : call.enrolls value = some key := isKey
        unfold Call.enrolls at enrolls
        split at enrolls
        · rename_i new row
          obtain ⟨account, isAccount, rfl⟩ := Option.map_eq_some_iff.mp enrolls
          refine ⟨enrolledOnce.first run resumes reads isKey, ?_⟩
          obtain ⟨id, -, isRow, change⟩ := resumes.performs.of_create
          exact ⟨id, row, by rw [change.lookup, if_pos rfl, isRow], rfl, isAccount⟩
        · cases enrolls
  constructor
  · intro key
    rw [resumes.trace, enrollments?_cons]
    split
    · rename_i isKey
      rw [(created key isKey).1]
    · exact enrolledOnce.once key
  · intro key positive
    by_cases isKey : enrolled performed = some key
    · exact (created key isKey).2
    · rw [resumes.trace, enrollments?_cons, if_neg isKey] at positive
      exact (enrolledOnce.stored key positive).resumes resumes permitted reads
  · intro newer older index consumerId account split
    rw [resumes.trace] at split
    cases newer with
    | nil =>
        obtain ⟨isEntry, rfl⟩ := List.cons.inj split
        obtain ⟨-, rfl⟩ := Entry.mk.inj isEntry
        by_contra positive
        obtain ⟨id, row, found, isOwner, isAccount⟩ :=
          enrolledOnce.stored _ (Nat.pos_of_ne_zero positive)
        exact Performs.not_none_of_customer found isOwner isAccount resumes.performs
    | cons newest newer =>
        obtain ⟨-, rest⟩ := List.cons.inj split
        exact enrolledOnce.missed newer older index consumerId account rest

/-- A payer gets at most one automatic customer. -/
theorem customer_enrolled_once (run : UnrivalledRun (.initial state) config)
    (consumerId account : String) : enrollments? (consumerId, account) config.trace ≤ 1 := by
  refine (run.keeps (I := fun config : Config (service deployment) => EnrolledOnce config)
    enrolledOnce_initial fun config config' reached enrolledOnce step => ?_).once _
  rcases step_cases step with ⟨sameTrace, drifts⟩ | ⟨thread, choice, request, performed, resumes⟩
  · obtain ⟨once, stored, missed⟩ := enrolledOnce
    refine ⟨?_, ?_, ?_⟩
    · rwa [sameTrace]
    · rwa [sameTrace, drifts.store]
    · rwa [sameTrace]
  · obtain ⟨resume, paused, -⟩ := resumes.paused
    have admitted := request_admitted (fun _ => rfl) (reached.mono fun _ _ => And.left) paused
    exact enrolledOnce.resume reached resumes (by simpa using admitted)

end Runs

/-! ## Two settlements of one payer -/

/-- The payer has made a payment with memo 7 and one with memo 8. -/
def Sample.twoPayments : World :=
  { Sample.world with
    ledger := ⟨[Sample.payment '1' true 7, Sample.payment '3' true 8], by decide⟩ }

/-- An intent for each payment is created and settled; the tasks are threads 7 and 9. -/
def twoSettlements : List (Label (service Sample.deployment)) :=
  Sample.create 0 "alice" "7" "c" "pi" ++ Sample.create 2 "alice" "8" "d" "pj" ++
    [Sample.validate "alice" "pi" '1', Sample.validate "alice" "pj" '3'] ++
    Sample.serve 4 7 ++ Sample.serve 5 7

/-- The second task looks up what the first one has created. -/
def enrolledInTurn : Config (service Sample.deployment) :=
  after (fun config label => decide
      (issues (fun request => !request.writesCustomers) label = true ∧ Unrivalled config label))
    (twoSettlements ++ [.resume 7 .serve, .resume 7 (.draw "k"), .resume 9 .serve])
    (.initial Sample.twoPayments)

theorem customer_enrolled_once_of_enrolledInTurn :
    enrollments? ("c", Sample.payer) enrolledInTurn.trace ≤ 1 ∧
      enrollments? ("c", Sample.payer) enrolledInTurn.trace ≠ 0 ∧
      (enrolledInTurn.past 9).map soughtCustomer = [some ("c", Sample.payer)] :=
  ⟨customer_enrolled_once (run_after (fun _ _ allowed => of_decide_eq_true allowed) _ _)
      "c" Sample.payer, by decide +kernel⟩

/-- Both tasks look the payer up before either of them creates a customer. -/
def enrolledTwice : Config (service Sample.deployment) :=
  after (fun _ label => issues (fun request => !request.writesCustomers) label)
    (twoSettlements ++ [.resume 7 .serve, .resume 9 .serve, .resume 7 (.draw "k"),
      .resume 9 (.draw "l")]) (.initial Sample.twoPayments)

/-- In general both tasks find no customer, and both create one. -/
theorem not_customer_enrolled_once :
    ¬ ∀ (deployment : Deployment) (state : World) (config : Config (service deployment))
      (consumerId account : String), state.store = .empty →
      Run (fun _ label => issues (fun request => !request.writesCustomers) label = true)
        (.initial state) config → enrollments? (consumerId, account) config.trace ≤ 1 := by
  intro once
  have twice : enrollments? ("c", Sample.payer) enrolledTwice.trace = 2 := by
    decide +kernel
  have atMost := once Sample.deployment Sample.twoPayments enrolledTwice "c" Sample.payer rfl
    (run_after (fun _ _ checked => checked) _ _)
  omega

end CosmosPay
