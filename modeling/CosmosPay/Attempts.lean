import CosmosPay.Awaiting.Counting
import CosmosPay.Contracts.Deliveries

/-!
# The audit trail of a delivery

A loop adds its POSTs to the attempts that it has loaded.  So the stored attempts are the
POSTs of the finished loops as long as no loop ends over a row that another loop has written
since it loaded it.
-/

namespace CosmosPay

open Awaiting Tables

/-- Is the call a POST of this delivery? -/
def isPostOf (id : String) (performed : Performed signature) : Bool :=
  match performed.call with
  | .post request => request.delivery = some id
  | _ => false

theorem isDeliveryPost_of_isPostOf {id : String} {performed : Performed signature}
    (isPost : isPostOf id performed = true) : isDeliveryPost performed = true := by
  obtain ⟨call, answer⟩ := performed
  cases call with
  | post request =>
      have isId : request.delivery = some id := of_decide_eq_true isPost
      simp [isDeliveryPost, isId]
  | _ => cases isPost

/-- Is the connection lost? -/
def Choice.rejects : Choice → Bool
  | .reject => true
  | _ => false

section Attempts

variable {deployment : Deployment}
variable {allows : Config (service deployment) → Label (service deployment) → Prop}
variable {config config' : Config (service deployment)} {state : World}

/-- A thread keeps to the delivery that it has loaded. -/
theorem loaded_append (run : Run allows (Config.initial state) config) {index : Nat}
    {front newer older : History signature} (split : config.past index = front ++ (newer ++ older))
    {delivery : WebhookDelivery} (isLoaded : loaded older = some delivery) :
    loaded (newer ++ older) = some delivery := by
  induction newer generalizing front with
  | nil => exact isLoaded
  | cons performed newer ih =>
      have before : loaded (newer ++ older) = some delivery :=
        ih (by rw [split, List.cons_append, List.append_cons])
      obtain ⟨request, -, permitted⟩ := run.permitted_past deliveries_fulfilled split
      refine (loaded_cons ?_).trans before
      obtain ⟨call, result⟩ := performed
      cases result with
      | error err => rfl
      | ok answer =>
          simp only [loads, Call.loads]
          split
          · exact absurd (before.symm.trans permitted) (by simp)
          · exact absurd (before.symm.trans permitted) (by simp)
          · rfl

/-- A thread POSTs only the delivery that it has loaded. -/
theorem loaded_of_post (run : Run allows (Config.initial state) config) {index : Nat}
    {id : String} {performed : Performed signature} (member : performed ∈ config.past index)
    (isPost : isPostOf id performed = true) :
    ∃ delivery, loaded (config.past index) = some delivery ∧ delivery.id = id := by
  obtain ⟨newer, older, split⟩ := List.append_of_mem member
  obtain ⟨request, -, permitted⟩ := run.permitted_past deliveries_fulfilled split
  have whole : config.past index = [] ++ ((newer ++ [performed]) ++ older) := by
    simp [split]
  obtain ⟨call, answer⟩ := performed
  cases call with
  | post request =>
      have isId : request.delivery = some id := of_decide_eq_true isPost
      rcases permitted with isPing | sends
      · rw [isPing] at isId
        cases isId
      · obtain ⟨endpoint, delivery, timestamp, -, isLoaded, rfl⟩ := sends.signed
        refine ⟨delivery, ?_, Option.some.inj isId⟩
        rw [whole]
        exact loaded_append run whole isLoaded
  | _ => cases isPost

omit deployment allows config config' state in
theorem issued_stable (id : String) : Stable fun world => id ∈ world.store.issued where
  performs performs known := performs.issued id known
  drifts drifts known := by rwa [drifts.store]

theorem issued_of_loaded (run : Run allows (Config.initial state) config) {index : Nat}
    {delivery : WebhookDelivery} (isLoaded : loaded (config.past index) = some delivery) :
    delivery.id ∈ config.state.store.issued := by
  obtain ⟨performed, member, shows⟩ := List.exists_of_findSome?_eq_some isLoaded
  obtain ⟨before, after, choice, request, -, resumes, later, -⟩ :=
    exists_resumes_of_mem run (mem_pastOf.mp member)
  refine (issued_stable delivery.id).run later ?_
  obtain ⟨call, result⟩ := performed
  cases result with
  | error err => cases shows
  | ok answer =>
      simp only [loads, Call.loads] at shows
      split at shows
      · obtain ⟨-, order, answered⟩ := resumes.performs.of_query
        have found := Option.some.inj answered
        rw [shows] at found
        obtain ⟨lookup, -⟩ := Option.filter_eq_some_iff.mp found
        have isKey : delivery.id = _ := Table.key_of_find? lookup
        rw [isKey]
        exact resumes.performs.issued _ (Store.issued_of_find? lookup)
      · obtain rfl := Option.some.inj shows
        obtain ⟨drawn, -, rfl, change⟩ := resumes.performs.of_create
        rw [change.issued]
        exact List.mem_cons_self
      · cases shows

/-- A finalized loop is at its end. -/
theorem unfinalized_of_paused (run : Run allows (Config.initial state) config) {index : Nat}
    {request : Request} {call : Call} {resume : signature.Result call → Promise Reply}
    (paused : config.threads[index]? = some ⟨request, .await call resume⟩) :
    (config.past index).any finalizes = false := by
  have permitted : permitsDelivery deployment request (config.past index) call :=
    run.permitted deliveries_fulfilled paused
  exact permitted.1

/-- A statement on a delivery fails only if it is rejected or the delivery is gone. -/
theorem Performs.absent_of_failed {world : World} {choice : Choice} {id : String}
    {patch : WebhookDeliveryPatch} {err : ServiceError}
    {served : Served signature (.write (.update .webhookDelivery id patch)) World Request}
    (performed : World.perform (.write (.update .webhookDelivery id patch)) choice world =
      some served) (accepted : choice.rejects = false) (failed : served.answer = .error err) :
    world.store.find? .webhookDelivery id = none := by
  have executed : served = world.commit (.update .webhookDelivery id patch)
      (world.store.update .webhookDelivery id patch) := by
    cases choice with
    | reject => cases accepted
    | serve =>
        simp only [World.perform, Option.ite_none_left_eq_some, Option.some.injEq] at performed
        exact performed.2.symm
    | draw drawn =>
        simp only [World.perform, Option.ite_none_right_eq_some] at performed
        exact absurd performed.1.1 (by simp [Write.draws])
    | _ => cases performed
  rcases world.commit_cases (.update .webhookDelivery id patch)
      (world.store.update .webhookDelivery id patch) with
    ⟨refusal, refused, -⟩ | ⟨answer, store, -, committed⟩
  · unfold Store.update at refused
    split at refused
    · rename_i nulls
      cases nulls
    · split at refused
      · rename_i missing
        rcases Table.update_eq_error missing with ⟨-, absent⟩ | ⟨isTaken, -⟩
        · exact absent
        · cases isTaken
      · rename_i taken
        rcases Table.update_eq_error taken with
          ⟨isMissing, -⟩ | ⟨-, row, found, other, member, differ, clash⟩
        · cases isMissing
        · -- the changed row keeps its key, and another row has another one
          have same : other.id = row.id := of_decide_eq_true clash
          have isKey : row.id = id := Table.key_of_find? found
          exact absurd (same.trans isKey) differ
      · cases refused
  · rw [executed, committed] at failed
    cases failed

/-- The statement that ends a loop goes through, over a delivery whose attempts are still
those that the loop has loaded. -/
def uncontended (config : Config (service deployment)) : Label (service deployment) → Bool
  | .resume thread choice =>
      match config.threads[thread]? with
      | some ⟨_, .await (.write (.update .webhookDelivery id _)) _⟩ =>
          !choice.rejects && (config.state.store.find? .webhookDelivery id).all fun row =>
            (loaded (config.past thread)).all fun delivery => row.attempts = delivery.attempts
      | _ => true
  | _ => true

abbrev UncontendedRun : Config (service deployment) → Config (service deployment) → Prop :=
  Run fun config label => uncontended config label = true

/-- The stored attempts are the POSTs of the finished loops. -/
def Counted (config : Config (service deployment)) : Prop :=
  ∀ id row, config.state.store.find? .webhookDelivery id = some row →
    row.attempts = config.settled (isPostOf id)

/-- A thread has POSTed its delivery, and no other. -/
theorem countP_isPostOf (run : Run allows (Config.initial state) config) {index : Nat}
    {delivery : WebhookDelivery} (isLoaded : loaded (config.past index) = some delivery)
    (id : String) : (config.past index).countP (isPostOf id) =
      if delivery.id = id then posted (config.past index) else 0 := by
  have owned : ∀ other, ∀ performed ∈ config.past index, isPostOf other performed = true →
      delivery.id = other := by
    intro other performed member isPost
    obtain ⟨found, isFound, isId⟩ := loaded_of_post run member isPost
    rwa [Option.some.inj (isLoaded.symm.trans isFound)]
  split
  · rename_i isId
    refine List.countP_congr fun performed member => ⟨isDeliveryPost_of_isPostOf, fun isPost => ?_⟩
    obtain ⟨call, answer⟩ := performed
    cases call with
    | post request =>
        obtain ⟨other, isOther⟩ := Option.isSome_iff_exists.mp isPost
        have isPostOfOther : isPostOf other ⟨.post request, answer⟩ = true :=
          decide_eq_true isOther
        rwa [← isId, owned other _ member isPostOfOther]
    | _ => cases isPost
  · rename_i isOther
    refine List.countP_eq_zero.mpr fun performed member isPost => ?_
    exact isOther (owned id performed member isPost)

/-- The delivery of a fresh row has not been POSTed. -/
theorem settled_of_fresh (run : Run allows (Config.initial state) config) {id : String}
    (fresh : id ∉ config.state.store.issued) : config.settled (isPostOf id) = 0 := by
  refine List.countP_eq_zero.mpr fun entry member counts => ?_
  obtain ⟨-, isPost⟩ := Bool.and_eq_true_iff.mp counts
  obtain ⟨delivery, isLoaded, rfl⟩ :=
    loaded_of_post run (mem_pastOf.mpr member) isPost
  exact fresh (issued_of_loaded run isLoaded)

/-- A call that does not end a loop neither settles POSTs nor counts attempts. -/
theorem Counted.of_not_final (run : Run allows (Config.initial state) config)
    (before : Counted config) {thread : Nat} {choice : Choice} {request : Request}
    {performed : Performed signature}
    (resumes : Resumes allows config config' thread choice request performed)
    (notFinal : finalizes performed = false) {id : String} {row : WebhookDelivery}
    (found : config'.state.store.find? .webhookDelivery id = some row) :
    row.attempts = config.settled (isPostOf id) := by
  cases resumes.performs.rows .webhookDelivery with
  | kept same => exact before id row ((same id).symm.trans found)
  | created new drawn createdAt isCreate fresh change =>
      rw [change.lookup] at found
      split at found
      · rename_i isId
        subst isId
        obtain rfl := Option.some.inj found
        exact (settled_of_fresh run fresh).symm
      · exact before id row found
  | updated key patch old isUpdate =>
      subst isUpdate
      cases notFinal
  | deleted key old _ change =>
      rw [change.lookup] at found
      split at found
      · cases found
      · exact before id row found
  | cascaded key old _ _ change =>
      rw [change.deliveries rfl] at found
      exact before id row (Option.filter_eq_some_iff.mp found).1

/-- A loop that ends adds its POSTs to the attempts that are stored. -/
theorem Counted.of_final (run : Run allows (Config.initial state) config)
    (before : Counted config) {thread : Nat} {choice : Choice} {request : Request}
    {key : String} {patch : WebhookDeliveryPatch} {answer : Except ServiceError WebhookDelivery}
    (allowed : uncontended config (.resume thread choice) = true)
    (resumes : Resumes allows config config' thread choice request
      ⟨.write (.update .webhookDelivery key patch), answer⟩) {id : String}
    {row : WebhookDelivery} (found : config'.state.store.find? .webhookDelivery id = some row) :
    row.attempts = config.settled (isPostOf id) + (config'.past thread).countP (isPostOf id) := by
  obtain ⟨resume, paused, -⟩ := resumes.paused
  have permitted : permitsDelivery deployment request (config.past thread)
      (.write (.update .webhookDelivery key patch)) := run.permitted deliveries_fulfilled paused
  obtain ⟨delivery, isLoaded, rfl, total⟩ := permitted.2.loaded
  have ownPosts := countP_isPostOf run isLoaded id
  have newPosts : (config'.past thread).countP (isPostOf id) =
      (config.past thread).countP (isPostOf id) := by
    rw [resumes.past_self, List.countP_cons_of_neg]
    exact Bool.false_ne_true
  simp only [uncontended, paused, Bool.and_eq_true, Bool.not_eq_true'] at allowed
  obtain ⟨accepted, current⟩ := allowed
  cases answer with
  | error err =>
      obtain ⟨served, performed, failed, -⟩ := resumes.answered
      have absent := Performs.absent_of_failed performed accepted failed
      have sameStore := resumes.performs.store_eq fun statement value => by rintro ⟨⟩
      rw [sameStore] at found
      have differ : delivery.id ≠ id := by
        rintro rfl
        rw [absent] at found
        cases found
      rw [newPosts, ownPosts, if_neg differ]
      exact before id row found
  | ok value =>
      obtain ⟨old, -, change⟩ := resumes.performs.of_update
      rw [change.lookup] at found
      by_cases isId : delivery.id = id
      · rw [if_pos isId] at found
        obtain rfl := Option.some.inj found
        rw [newPosts, ownPosts, if_pos isId, ← isId, ← before _ old change.found]
        have same : old.attempts = delivery.attempts := by
          simpa [change.found, isLoaded] using current
        rw [same]
        exact total
      · rw [if_neg isId] at found
        rw [newPosts, ownPosts, if_neg isId]
        exact before id row found

/-- A thread with a finalized loop has ended. -/
theorem finished_of_finalized (run : Run allows (Config.initial state) config) {index : Nat}
    {found : Thread (service deployment)} (lookup : config.threads[index]? = some found)
    (isFinal : (config.past index).any finalizes = true) : config.finished index = true := by
  obtain ⟨request, code⟩ := found
  cases code with
  | done outcome => simp [Config.finished, lookup]
  | await call resume =>
      have none' := unfinalized_of_paused run lookup
      rw [isFinal] at none'
      cases none'

/-- A thread that has ended without finalizing has POSTed nothing. -/
theorem posted_of_unfinalized (run : Run allows (Config.initial state) config) {index : Nat}
    (ended : config.finished index = true) (notFinal : (config.past index).any finalizes = false) :
    posted (config.past index) = 0 := by
  obtain ⟨found, lookup, isDone⟩ := (Option.any_eq_true _ _).mp ended
  obtain ⟨request, code⟩ := found
  obtain ⟨outcome, rfl⟩ := Program.Finished.outcome (of_decide_eq_true isDone)
  have ensured : ensuresDelivery (config.past index) outcome :=
    run.ensured deliveries_fulfilled lookup
  rcases ensured with isFinal | isZero
  · rw [notFinal] at isFinal
    cases isFinal
  · exact isZero

theorem Counted.resume (run : UncontendedRun (.initial state) config) (before : Counted config)
    {thread : Nat} {choice : Choice} {request : Request} {performed : Performed signature}
    (resumes : Resumes (fun config label => uncontended config label = true) config config' thread
      choice request performed)
    (total : ∀ id, config'.settled (isPostOf id) = config.settled (isPostOf id) +
      if config'.finished thread then (config'.past thread).countP (isPostOf id) else 0) :
    Counted config' := by
  have run' := run.tail resumes.step
  obtain ⟨resume, paused, now⟩ := resumes.paused
  intro id row found
  rw [total id]
  cases isFinal : finalizes performed with
  | true =>
      have ended : config'.finished thread = true := by
        refine finished_of_finalized run' now ?_
        rw [resumes.past_self, List.any_cons, isFinal, Bool.true_or]
      rw [if_pos ended]
      obtain ⟨call, answer⟩ := performed
      cases call with
      | write statement =>
          cases statement with
          | update model key patch =>
              cases model with
              | webhookDelivery => exact before.of_final run resumes.allowed resumes found
              | _ => cases isFinal
          | _ => cases isFinal
      | _ => cases isFinal
  | false =>
      have kept := before.of_not_final run resumes isFinal found
      split
      · rename_i ended
        have open' : (config'.past thread).any finalizes = false := by
          rw [resumes.past_self, List.any_cons, isFinal, unfinalized_of_paused run paused]
          rfl
        have noPosts : posted (config'.past thread) = 0 := posted_of_unfinalized run' ended open'
        have own : (config'.past thread).countP (isPostOf id) = 0 := by
          refine List.countP_eq_zero.mpr fun made member isPost => ?_
          exact List.countP_eq_zero.mp noPosts made member (isDeliveryPost_of_isPostOf isPost)
        rw [own]
        exact kept
      · exact kept

theorem Counted.step (run : UncontendedRun (.initial state) config) (before : Counted config)
    (step : Step (fun config label => uncontended config label = true) config config') :
    Counted config' := by
  cases step with
  | issue request allowed =>
      intro id row found
      rw [Config.settled_issue _ run.accounted]
      exact before id row found
  | resume thread choice allowed paused performed =>
      exact before.resume run (.of_resume allowed paused performed) fun id =>
        Config.settled_advance _ run.accounted paused _
  | move move allowed moved =>
      intro id row found
      have drifts := Drifts.of_move moved
      refine before id row ?_
      rw [← drifts.store]
      exact found

theorem counted_of_run (start : state.store = .empty)
    (run : UncontendedRun (.initial state) config) : Counted config := by
  refine run.keeps ?_ fun _ _ reached before step => before.step reached step
  intro id row found
  have none' : (Store.empty.find? .webhookDelivery id) = some row := start ▸ found
  cases none'

/-- Is there a thread in flight that has loaded this delivery? -/
def Delivering (config : Config (service deployment)) (id : String) : Prop :=
  ∃ (index : Nat) (found : Thread (service deployment)) (delivery : WebhookDelivery),
    config.threads[index]? = some found ∧ ¬ found.code.Finished ∧
      loaded (config.past index) = some delivery ∧ delivery.id = id

/-- When no loop is in flight, the stored attempts are the POSTs made for the delivery. -/
def AttemptsCounted (config : Config (service deployment)) : Prop :=
  ∀ id row, config.state.store.find? .webhookDelivery id = some row → ¬ Delivering config id →
    row.attempts = config.trace.countP fun entry => isPostOf id entry.performed

/-- No attempt is lost from the audit trail in a run in which no loop ends over a row that
another loop has written since it loaded it. -/
theorem attempts_counted (start : state.store = .empty)
    (run : UncontendedRun (.initial state) config) : AttemptsCounted config := by
  intro id row found idle
  rw [counted_of_run start run id row found]
  refine Config.settled_eq _ fun entry member isPost => ?_
  obtain ⟨delivery, isLoaded, isId⟩ :=
    loaded_of_post run (mem_pastOf.mpr member) isPost
  have bound := run.accounted entry member
  have lookup : config.threads[entry.thread]? = some config.threads[entry.thread] :=
    List.getElem?_eq_getElem bound
  by_contra unfinished
  refine idle ⟨entry.thread, _, delivery, lookup, fun ended => unfinished ?_, isLoaded, isId⟩
  simp [Config.finished, lookup, ended]

end Attempts

/-! ## Two loops over one delivery -/

namespace Sample

def endpointDto : CreateWebhookEndpointDto where
  url := "https://alice.example/hook"
  description := .undefined
  eventTypes := .undefined

/-- A request to create an endpoint as thread `thread`, run to its end. -/
def register (thread : Nat) (username consumerId endpointId : String) :
    List (Label (service deployment)) :=
  [.issue (.webhooks (.create (caller username) endpointDto)),
    .resume thread (.draw consumerId), .resume thread (.bytes (List.replicate 24 7)),
    .resume thread (.draw endpointId)]

/-- The fan-out of an event to one endpoint as thread `thread`, and the task that it starts,
run until that task has created its delivery. -/
def fanOut (thread : Nat) (endpointId deliveryId : String) : List (Label (service deployment)) :=
  [.resume thread (.arrange [endpointId]), .resume thread (.draw "u"), .resume thread .serve,
    .resume (thread + 1) .serve, .resume (thread + 1) (.draw deliveryId)]

/-- A delivery of a fresh intent whose loop, thread 3, has not made a POST yet. -/
def delivery : List (Label (service deployment)) :=
  register 0 "alice" "c" "ep" ++ create 1 "alice" "7" "c'" "pi" ++ fanOut 2 "ep" "d"

/-- One POST of a loop, answered with this status. -/
def post (thread status : Nat) : List (Label (service deployment)) :=
  [.resume thread .serve, .resume thread (.respond status)]

/-- A manual redelivery as thread `thread`, up to its first POST. -/
def redeliver (thread : Nat) (username endpointId deliveryId : String) :
    List (Label (service deployment)) :=
  .issue (.webhooks (.redeliver (caller username) endpointId deliveryId)) :: serve thread 3

end Sample

/-- Two POSTs of the first loop, and then one POST of a redelivery. -/
def deliveredTwice : Config (service Sample.deployment) :=
  after uncontended
    (Sample.delivery ++ Sample.post 3 500 ++ Sample.serve 3 1 ++ Sample.post 3 200 ++
      Sample.serve 3 2 ++ Sample.redeliver 4 "alice" "ep" "d" ++ Sample.post 4 200 ++
      Sample.serve 4 2)
    Sample.start

theorem attempts_counted_of_deliveredTwice :
    AttemptsCounted deliveredTwice ∧
      (deliveredTwice.state.store.find? .webhookDelivery "d").map (·.attempts) = some 3 :=
  ⟨attempts_counted rfl (run_after (fun _ _ checked => checked) _ _), by decide +kernel⟩

/-- No connection is lost. -/
def connected : Label (service Sample.deployment) → Bool
  | .resume _ choice => !choice.rejects
  | _ => true

/-- A redelivery while the first loop waits for its second POST. -/
def deliveredAtOnce : Config (service Sample.deployment) :=
  after (fun _ label => connected label)
    (Sample.delivery ++ Sample.post 3 500 ++ Sample.redeliver 4 "alice" "ep" "d" ++
      Sample.post 4 200 ++ Sample.serve 4 2 ++ Sample.serve 3 1 ++ Sample.post 3 200 ++
      Sample.serve 3 2)
    Sample.start

/-- In general attempts are lost: the loop that ends last counts its own POSTs only. -/
theorem not_attempts_counted :
    ¬ ∀ (state : World) (config : Config (service Sample.deployment)), state.store = .empty →
      Run (fun _ label => connected label = true) (.initial state) config →
        AttemptsCounted config := by
  intro counted
  have quiet : ∀ thread ∈ deliveredAtOnce.threads, thread.code.Finished := by
    decide +kernel
  have idle : ¬ Delivering deliveredAtOnce "d" := by
    rintro ⟨index, found, delivery, lookup, unfinished, -⟩
    exact unfinished (quiet found (List.mem_of_getElem? lookup))
  have attempts : (deliveredAtOnce.state.store.find? .webhookDelivery "d").map (·.attempts) =
      some 2 := by
    decide +kernel
  have posts : deliveredAtOnce.trace.countP (fun entry => isPostOf "d" entry.performed) = 3 := by
    decide +kernel
  obtain ⟨row, found, isTwo⟩ := Option.map_eq_some_iff.mp attempts
  have total := counted Sample.world deliveredAtOnce rfl
    (run_after (fun _ _ checked => checked) _ _) "d" row found idle
  omega

end CosmosPay
