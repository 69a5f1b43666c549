import CosmosPay.Attempts
import CosmosPay.Contracts.Loops

/-!
# What the audit trail says is true

Loops over one delivery overwrite each other, so a row may say too little.  It never says too
much: its attempts are at most the POSTs made for it, and its outcome is the answer to one of
them.
-/

namespace CosmosPay

open Awaiting Tables

section AuditTrail

variable {deployment : Deployment}
variable {allows : Config (service deployment) → Label (service deployment) → Prop}
variable {config config' : Config (service deployment)} {state : World}

/-- The POSTs made for a delivery. -/
def postsOf (id : String) (trace : List (Entry signature)) : Nat :=
  trace.countP fun entry => isPostOf id entry.performed

theorem postsOf_le_cons (id : String) (entry : Entry signature)
    (trace : List (Entry signature)) : postsOf id trace ≤ postsOf id (entry :: trace) := by
  unfold postsOf
  rw [List.countP_cons]
  omega

theorem postsOf_cons_of_post {id : String} {entry : Entry signature}
    (isPost : isPostOf id entry.performed = true) (trace : List (Entry signature)) :
    postsOf id (entry :: trace) = postsOf id trace + 1 :=
  List.countP_cons_of_pos isPost

theorem Resumes.postsOf_le {thread : Nat} {choice : Choice} {request : Request}
    {performed : Performed signature}
    (resumes : Resumes allows config config' thread choice request performed) (id : String) :
    postsOf id config.trace ≤ postsOf id config'.trace := by
  rw [resumes.trace]
  exact postsOf_le_cons id _ _

/-! ## Attempts -/

/-- No row and no loop counts a POST that was not made. -/
structure Bounded (config : Config (service deployment)) : Prop where
  rows : ∀ id row, config.state.store.find? .webhookDelivery id = some row →
    row.attempts ≤ postsOf id config.trace
  loops : ∀ index delivery, loaded (config.past index) = some delivery →
    delivery.attempts + posted (config.past index) ≤ postsOf delivery.id config.trace

/-- A thread that has loaded nothing has POSTed nothing. -/
theorem posted_of_unloaded (run : Run allows (Config.initial state) config) {index : Nat}
    (unloaded : loaded (config.past index) = none) : posted (config.past index) = 0 := by
  refine List.countP_eq_zero.mpr fun performed member isPost => ?_
  obtain ⟨call, answer⟩ := performed
  cases call with
  | post request =>
      obtain ⟨id, isId⟩ := Option.isSome_iff_exists.mp isPost
      have isPostOf' : isPostOf id ⟨.post request, answer⟩ = true := decide_eq_true isId
      obtain ⟨delivery, isLoaded, -⟩ := loaded_of_post run member isPostOf'
      rw [unloaded] at isLoaded
      cases isLoaded
  | _ => cases isPost

/-- What a thread loads is what is stored, and a fresh row has no attempts. -/
theorem Bounded.loads (before : Bounded config) {thread : Nat} {choice : Choice}
    {request : Request} {performed : Performed signature}
    (resumes : Resumes allows config config' thread choice request performed)
    {delivery : WebhookDelivery} (isLoaded : loads performed = some delivery) :
    delivery.attempts ≤ postsOf delivery.id config.trace := by
  obtain ⟨call, result⟩ := performed
  cases result with
  | error err => cases isLoaded
  | ok answer =>
      simp only [CosmosPay.loads, Call.loads] at isLoaded
      split at isLoaded
      · obtain ⟨-, order, answered⟩ := resumes.performs.of_query
        have found := Option.some.inj answered
        rw [isLoaded] at found
        obtain ⟨lookup, -⟩ := Option.filter_eq_some_iff.mp found
        have isKey : delivery.id = _ := Table.key_of_find? lookup
        rw [isKey]
        exact before.rows _ _ lookup
      · obtain rfl := Option.some.inj isLoaded
        obtain ⟨drawn, -, rfl, -⟩ := resumes.performs.of_create
        exact Nat.zero_le _
      · cases isLoaded

omit allows config config' state in
theorem unloaded_of_loads {request : Request} {past : History signature}
    {performed : Performed signature}
    (permitted : permitsDelivery deployment request past performed.call)
    {delivery : WebhookDelivery} (isLoaded : loads performed = some delivery) :
    loaded past = none ∧ isDeliveryPost performed = false := by
  obtain ⟨call, result⟩ := performed
  cases result with
  | error err => cases isLoaded
  | ok answer =>
      simp only [loads, Call.loads] at isLoaded
      split at isLoaded
      · exact ⟨permitted.2, rfl⟩
      · exact ⟨permitted.2, rfl⟩
      · cases isLoaded

omit allows config config' state in
/-- A loop POSTs the delivery that its thread has loaded. -/
theorem isPostOf_of_loaded {request : Request} {past : History signature}
    {performed : Performed signature}
    (permitted : permitsDelivery deployment request past performed.call)
    {delivery : WebhookDelivery} (isLoaded : loaded past = some delivery)
    (isPost : isDeliveryPost performed = true) : isPostOf delivery.id performed = true := by
  obtain ⟨call, answer⟩ := performed
  cases call with
  | post post =>
      rcases permitted.2 with isPing | sends
      · simp [isDeliveryPost, isPing] at isPost
      · obtain ⟨endpoint, sent, timestamp, -, isSent, rfl⟩ := sends.signed
        obtain rfl := Option.some.inj (isSent.symm.trans isLoaded)
        exact decide_eq_true rfl
  | _ => cases isPost

theorem Bounded.resume (run : Run allows (Config.initial state) config) (before : Bounded config)
    {thread : Nat} {choice : Choice} {request : Request} {performed : Performed signature}
    (resumes : Resumes allows config config' thread choice request performed) :
    Bounded config' := by
  obtain ⟨resume, paused, -⟩ := resumes.paused
  have permitted : permitsDelivery deployment request (config.past thread) performed.call :=
    run.permitted deliveries_fulfilled paused
  refine ⟨fun id row found => ?_, fun index delivery isLoaded => ?_⟩
  · cases resumes.performs.rows .webhookDelivery with
    | kept same =>
        exact (before.rows id row ((same id).symm.trans found)).trans (resumes.postsOf_le id)
    | created new drawn createdAt _ _ change =>
        rw [change.lookup] at found
        split at found
        · obtain rfl := Option.some.inj found
          exact Nat.zero_le _
        · exact (before.rows id row found).trans (resumes.postsOf_le id)
    | updated key patch old isUpdate change =>
        rw [change.lookup] at found
        split at found
        · rename_i isId
          subst isId isUpdate
          obtain rfl := Option.some.inj found
          obtain ⟨delivery, isLoaded, rfl, total⟩ := permitted.2.loaded
          have bound := before.loops thread delivery isLoaded
          have written : patch.attempts ≤ postsOf delivery.id config.trace := total ▸ bound
          exact written.trans (resumes.postsOf_le _)
        · exact (before.rows id row found).trans (resumes.postsOf_le id)
    | deleted key old _ change =>
        rw [change.lookup] at found
        split at found
        · cases found
        · exact (before.rows id row found).trans (resumes.postsOf_le id)
    | cascaded key old _ _ change =>
        rw [change.deliveries rfl] at found
        exact (before.rows id row (Option.filter_eq_some_iff.mp found).1).trans
          (resumes.postsOf_le id)
  · by_cases same : thread = index
    · subst same
      rw [resumes.past_self] at isLoaded ⊢
      cases isFirst : CosmosPay.loads performed with
      | some first =>
          obtain ⟨unloaded, notPost⟩ := unloaded_of_loads permitted isFirst
          have isDelivery : first = delivery := by
            simpa [loaded, isFirst] using isLoaded
          subst isDelivery
          have unposted := posted_of_unloaded run unloaded
          have bound := before.loads resumes isFirst
          have same : posted (performed :: config.past thread) = 0 := by
            rw [posted, List.countP_cons_of_neg (by simp [notPost])]
            exact unposted
          have kept := resumes.postsOf_le first.id
          omega
      | none =>
          rw [loaded_cons isFirst] at isLoaded
          have bound := before.loops thread delivery isLoaded
          cases isPost : isDeliveryPost performed with
          | false =>
              have kept := resumes.postsOf_le delivery.id
              rw [posted, List.countP_cons_of_neg (by simp [isPost])]
              exact bound.trans kept
          | true =>
              have own := isPostOf_of_loaded permitted isLoaded isPost
              rw [posted, List.countP_cons_of_pos isPost, resumes.trace, postsOf_cons_of_post own]
              exact Nat.succ_le_succ bound
    · rw [resumes.past_of_ne same] at isLoaded ⊢
      exact (before.loops index delivery isLoaded).trans (resumes.postsOf_le _)

theorem bounded_of_run (start : state.store = .empty)
    (run : Run allows (Config.initial state) config) : Bounded config := by
  refine run.keeps ⟨fun id row found => ?_, fun index delivery isLoaded => ?_⟩
    fun config config' reached before step => ?_
  · rw [find?_initial start] at found
    cases found
  · cases isLoaded
  · rcases step_cases step with ⟨sameTrace, drifts⟩ | ⟨_, _, _, _, resumes⟩
    · refine ⟨fun id row found => ?_, fun index delivery isLoaded => ?_⟩
      · rw [drifts.store] at found
        rw [sameTrace]
        exact before.rows id row found
      · rw [Config.past, sameTrace] at isLoaded ⊢
        exact before.loops index delivery isLoaded
    · exact before.resume reached resumes

/-! ## Outcomes -/

/-- What a row says about the delivery: nothing yet, or how one of its POSTs went.  A loop of
no rounds ends without one. -/
inductive Attested (deployment : Deployment) (trace : List (Entry signature))
    (row : WebhookDelivery) : Prop where
  | untried (status : row.status = .pending) (attempts : row.attempts = 0)
      (responseStatus : row.responseStatus = none) (error : row.error = none)
      (lastAttemptAt : row.lastAttemptAt = none)
  | answered (thread : Nat) (post : WebhookPost) (answer : Except ServiceError Nat)
      (made : ⟨thread, .post post, answer⟩ ∈ trace) (isDelivery : post.delivery = some row.id)
      (status : row.status = if isSuccess answer then .succeeded else .failed)
      (responseStatus : row.responseStatus = answer.toOption) (error : row.error = complaint answer)
  | exhausted (noRounds : deployment.config.maxAttempts = 0) (status : row.status = .failed)
      (responseStatus : row.responseStatus = none) (error : row.error = none)

omit allows config config' state in
theorem Attested.mono {trace trace' : List (Entry signature)} {row : WebhookDelivery}
    (attested : Attested deployment trace row) (grows : trace ⊆ trace') :
    Attested deployment trace' row := by
  cases attested with
  | untried status attempts responseStatus error lastAttemptAt =>
      exact .untried status attempts responseStatus error lastAttemptAt
  | answered thread post answer made isDelivery status responseStatus error =>
      exact .answered thread post answer (grows made) isDelivery status responseStatus error
  | exhausted noRounds status responseStatus error =>
      exact .exhausted noRounds status responseStatus error

omit allows config config' state in
/-- The newest answer of a loop is the answer to one of its POSTs. -/
theorem exists_post_of_response {endpoint : WebhookEndpoint} {delivery : WebhookDelivery}
    {past : History signature} (carries : Carries deployment endpoint delivery past)
    {answer : Except ServiceError Nat} (isAnswer : (responses past).head? = some answer) :
    ∃ post, ⟨.post post, answer⟩ ∈ past ∧ post.delivery = some delivery.id := by
  have member : answer ∈ responses past := List.mem_of_head? isAnswer
  obtain ⟨⟨call, result⟩, made, isResponse⟩ := List.mem_filterMap.mp member
  cases call with
  | post post =>
      obtain ⟨timestamp, isPost⟩ := carries _ made post rfl
      simp only [Call.response, Option.ite_none_right_eq_some, Option.some.injEq] at isResponse
      obtain ⟨-, rfl⟩ := isResponse
      exact ⟨post, made, isPost ▸ rfl⟩
  | _ => cases isResponse

omit config' in
/-- A loop that has written its statement has written how its last POST went. -/
theorem attested_of_attempted {index : Nat} {endpoint : WebhookEndpoint}
    {delivery row : WebhookDelivery} {outcome : Except ServiceError WebhookDelivery}
    {lastAttemptAt : Nat} {earlier : History signature}
    (attempted : Attempted deployment endpoint delivery (config.past index) outcome lastAttemptAt
      earlier) (isId : row.id = delivery.id) :
    Attested deployment config.trace (Model.apply .webhookDelivery
      (conclusion delivery (responses earlier) lastAttemptAt) row) := by
  cases isAnswer : (responses earlier).head? with
  | some answer =>
      obtain ⟨post, made, isDelivery⟩ := exists_post_of_response attempted.carries isAnswer
      have inTrace : ⟨index, .post post, answer⟩ ∈ config.trace := by
        refine mem_pastOf.mp (?_ : _ ∈ config.past index)
        rw [attempted.last]
        exact List.mem_cons_of_mem _ made
      have isRow : post.delivery = some row.id := isDelivery.trans (congrArg some isId.symm)
      refine .answered index post answer inTrace isRow ?_ ?_ ?_
      · simp [Model.apply, conclusion, isAnswer]
      · simp [Model.apply, conclusion, isAnswer]
      · simp [Model.apply, conclusion, isAnswer]
  | none =>
      have isEmpty : responses earlier = [] := List.head?_eq_none_iff.mp isAnswer
      refine .exhausted ?_ ?_ ?_ ?_
      · rcases attempted.concludes.ended with success | all
        · simp [isEmpty] at success
        · simpa [isEmpty] using all.symm
      · simp [Model.apply, conclusion, isEmpty]
      · simp [Model.apply, conclusion, isEmpty]
      · simp [Model.apply, conclusion, isEmpty]

/-- Every stored outcome is one that a POST had. -/
def AllAttested (config : Config (service deployment)) : Prop :=
  ∀ id row, config.state.store.find? .webhookDelivery id = some row →
    Attested deployment config.trace row

theorem AllAttested.resume (run : Run allows (Config.initial state) config)
    (before : AllAttested config) {thread : Nat} {choice : Choice} {request : Request}
    {performed : Performed signature}
    (resumes : Resumes allows config config' thread choice request performed) :
    AllAttested config' := by
  have run' : Run allows (Config.initial state) config' := run.tail resumes.step
  have grows := step_trace resumes.step
  obtain ⟨resume, paused, now⟩ := resumes.paused
  intro id row found
  cases resumes.performs.rows .webhookDelivery with
  | kept same => exact (before id row ((same id).symm.trans found)).mono grows
  | created new drawn createdAt isCreate _ change =>
      rw [change.lookup] at found
      split at found
      · obtain rfl := Option.some.inj found
        subst isCreate
        have permitted : permitsLoop request (config.past thread)
            (.write (.create .webhookDelivery new)) := run.permitted loops_fulfilled paused
        obtain ⟨endpoint, eventType, eventId, data, at', -, rfl⟩ := permitted
        exact .untried rfl rfl rfl rfl rfl
      · exact (before id row found).mono grows
  | updated key patch old isUpdate change =>
      rw [change.lookup] at found
      split at found
      · rename_i isId
        subst isId isUpdate
        obtain rfl := Option.some.inj found
        have isFinal : (config'.past thread).any finalizes = true := by
          rw [resumes.past_self]
          rfl
        obtain ⟨found, lookup, isDone⟩ :=
          (Option.any_eq_true _ _).mp (finished_of_finalized run' now isFinal)
        obtain ⟨request', code⟩ := found
        obtain ⟨outcome, rfl⟩ := Program.Finished.outcome (of_decide_eq_true isDone)
        have ended : ensuresLoop deployment (config'.past thread) :=
          run'.ensured loops_fulfilled lookup
        obtain ⟨endpoint, delivery, written, lastAttemptAt, earlier, attempted⟩ := ended isFinal
        have isLast := attempted.last
        rw [resumes.past_self] at isLast
        obtain ⟨isStatement, -⟩ := List.cons.inj isLast
        cases isStatement
        exact attested_of_attempted attempted (Table.key_of_find? change.found)
      · exact (before id row found).mono grows
  | deleted key old _ change =>
      rw [change.lookup] at found
      split at found
      · cases found
      · exact (before id row found).mono grows
  | cascaded key old _ _ change =>
      rw [change.deliveries rfl] at found
      exact (before id row (Option.filter_eq_some_iff.mp found).1).mono grows

theorem allAttested_of_run (start : state.store = .empty)
    (run : Run allows (Config.initial state) config) : AllAttested config := by
  refine run.keeps (fun id row found => ?_) fun config config' reached before step => ?_
  · rw [find?_initial start] at found
    cases found
  · rcases step_cases step with ⟨sameTrace, drifts⟩ | ⟨_, _, _, _, resumes⟩
    · intro id row found
      rw [drifts.store] at found
      rw [sameTrace]
      exact before id row found
    · exact before.resume reached resumes

end AuditTrail

end CosmosPay
