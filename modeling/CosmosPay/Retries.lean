import CosmosPay.Awaiting.Strategies
import CosmosPay.Contracts.Deliveries

/-!
# The retry loop

`attempt` POSTs a delivery until a receiver answers with a 2xx or the attempts run out, and
then writes down how the last POST went.  Nothing of an earlier round is left in what it
writes, and the statement is the last thing that it does, whether or not it goes through.
-/

namespace CosmosPay

open Awaiting Program WebhookDispatcher

/-! ## What receivers answer -/

def isSuccess : Except ServiceError Nat → Bool
  | .ok status => isOk status
  | .error _ => false

/-- The error text of a round. -/
def complaint : Except ServiceError Nat → Option String
  | .ok status => if isOk status then none else some ("Non-2xx response: " ++ status.repr)
  | .error err => some err.message

def Call.response : (call : Call) → signature.Result call → Option (Except ServiceError Nat)
  | .post request, answer => if request.delivery.isSome then some answer else none
  | _, _ => none

/-- The answers to the POSTs of deliveries, the newest first. -/
def responses (past : History signature) : List (Except ServiceError Nat) :=
  past.filterMap fun performed => performed.call.response performed.answer

/-- What `finalize` writes after these answers. -/
def conclusion (delivery : WebhookDelivery) (responses : List (Except ServiceError Nat))
    (lastAttemptAt : Nat) : WebhookDeliveryPatch where
  status := if responses.head?.any isSuccess then .succeeded else .failed
  attempts := delivery.attempts + responses.length
  responseStatus := responses.head?.bind Except.toOption
  error := responses.head?.bind complaint
  lastAttemptAt := lastAttemptAt

/-- The answers end a loop of so many rounds: no POST follows a 2xx, and without one all
rounds are used. -/
structure Concludes (rounds : Nat) (responses : List (Except ServiceError Nat)) : Prop where
  failures : ∀ response ∈ responses.tail, isSuccess response = false
  bounded : responses.length ≤ rounds
  ended : responses.head?.any isSuccess = true ∨ responses.length = rounds

section Responses

variable {past : History signature}

theorem complaint_of_success {response : Except ServiceError Nat}
    (success : isSuccess response = true) : complaint response = none := by
  cases response with
  | ok status => exact if_pos success
  | error err => cases success

theorem complaint_of_failure {response : Except ServiceError Nat}
    (failure : isSuccess response = false) : complaint response ≠ none := by
  cases response with
  | ok status => simp [complaint, show isOk status = false from failure]
  | error err => exact nofun

theorem response_isSome (performed : Performed signature) :
    (performed.call.response performed.answer).isSome = isDeliveryPost performed := by
  obtain ⟨call, answer⟩ := performed
  cases call with
  | post request =>
      simp only [Call.response, isDeliveryPost]
      split <;> simp_all
  | _ => rfl

theorem responses_cons (performed : Performed signature) (past : History signature) :
    responses (performed :: past) =
      (performed.call.response performed.answer).toList ++ responses past := by
  rw [responses, List.filterMap_cons]
  cases performed.call.response performed.answer <;> rfl

theorem responses_post {post : WebhookPost} {id : String} (isDelivery : post.delivery = some id)
    (answer : Except ServiceError Nat) :
    responses (⟨.post post, answer⟩ :: past) = answer :: responses past := by
  rw [responses_cons]
  simp [Call.response, isDelivery]

end Responses

/-! ## The loop -/

/-- A call of the loop. -/
def Call.Attempts : Call → Prop
  | .now => True
  | .sleep _ => True
  | .post _ => True
  | .write (.update .webhookDelivery _ _) => True
  | _ => False

/-- The clock and the timer have answered. -/
def Timed (performed : Performed signature) : Prop :=
  performed.call.IsTimer → ∃ value, performed.answer = .ok value

/-- All POSTs carry this delivery to this endpoint. -/
def Carries (deployment : Deployment) (endpoint : WebhookEndpoint) (delivery : WebhookDelivery)
    (past : History signature) : Prop :=
  ∀ performed ∈ past, ∀ post, performed.call = .post post → ∃ timestamp,
    post = deliveryPost deployment endpoint delivery
      (deployment.libraries.stringify delivery.payload) timestamp

/-- How `attempt` has ended: with one statement after its POSTs. -/
structure Attempted (deployment : Deployment) (endpoint : WebhookEndpoint)
    (delivery : WebhookDelivery) (past : History signature)
    (outcome : Except ServiceError WebhookDelivery) (lastAttemptAt : Nat)
    (earlier : History signature) : Prop where
  last : past = ⟨.write (.update .webhookDelivery delivery.id
    (conclusion delivery (responses earlier) lastAttemptAt)), outcome⟩ :: earlier
  unfinalized : earlier.any finalizes = false
  carries : Carries deployment endpoint delivery earlier
  concludes : Concludes deployment.config.maxAttempts (responses earlier)

/-- The loop before a round. -/
structure Trying (deployment : Deployment) (endpoint : WebhookEndpoint)
    (delivery : WebhookDelivery) (remaining attempts : Nat) (lastError : Option String)
    (responseStatus : Option Nat) (past : History signature) : Prop where
  unfinalized : past.any finalizes = false
  carries : Carries deployment endpoint delivery past
  failures : ∀ response ∈ responses past, isSuccess response = false
  rounds : (responses past).length + remaining = deployment.config.maxAttempts
  attempts : attempts = delivery.attempts + (responses past).length
  lastError : lastError = (responses past).head?.bind complaint
  responseStatus : responseStatus = (responses past).head?.bind Except.toOption

section Loop

variable {deployment : Deployment} {endpoint : WebhookEndpoint} {delivery : WebhookDelivery}
variable {remaining attempts : Nat} {lastError : Option String} {responseStatus : Option Nat}
variable {past : History signature}

theorem Call.IsTimer.transparent (call : Call) (isTimer : call.IsTimer)
    (answer : Except ServiceError call.Answer) :
    finalizes ⟨call, answer⟩ = false ∧ call.response answer = none ∧
      ∀ post, call ≠ .post post := by
  cases call <;> first | exact isTimer.elim | exact ⟨rfl, rfl, nofun⟩

theorem Carries.cons {performed : Performed signature}
    (carries : Carries deployment endpoint delivery past)
    (notPost : ∀ post, performed.call ≠ .post post) :
    Carries deployment endpoint delivery (performed :: past) := by
  intro other member post isPost
  rcases List.mem_cons.mp member with rfl | older
  · exact absurd isPost (notPost post)
  · exact carries other older post isPost

theorem Trying.timer (trying : Trying deployment endpoint delivery remaining attempts lastError
      responseStatus past) (call : Call) (isTimer : call.IsTimer)
    (answer : Except ServiceError call.Answer) :
    Trying deployment endpoint delivery remaining attempts lastError responseStatus
      (⟨call, answer⟩ :: past) := by
  obtain ⟨notFinal, noResponse, notPost⟩ := Call.IsTimer.transparent call isTimer answer
  have same : responses (⟨call, answer⟩ :: past) = responses past := by
    rw [responses_cons, noResponse]
    rfl
  exact {
    unfinalized := by simpa [notFinal] using trying.unfinalized
    carries := trying.carries.cons notPost
    failures := by rw [same]; exact trying.failures
    rounds := by rw [same]; exact trying.rounds
    attempts := by rw [same]; exact trying.attempts
    lastError := by rw [same]; exact trying.lastError
    responseStatus := by rw [same]; exact trying.responseStatus }

/-- The statement that ends the loop, after any number of rounds. -/
theorem attempts_finalize {status : WebhookDeliveryStatus} {error : Option String}
    (unfinalized : past.any finalizes = false)
    (carries : Carries deployment endpoint delivery past)
    (concludes : Concludes deployment.config.maxAttempts (responses past))
    (isConclusion : ∀ now, WebhookDeliveryPatch.mk status attempts responseStatus error now =
      conclusion delivery (responses past) now) :
    (finalize delivery.id status attempts responseStatus error).Conforms Timed
      (fun _ call => call.Attempts)
      (fun later outcome => ∃ lastAttemptAt earlier,
        Attempted deployment endpoint delivery later outcome lastAttemptAt earlier) past := by
  refine conforms_call_bind.mpr ⟨trivial, fun err timed => ?_, fun now _ => ?_⟩
  · obtain ⟨value, isOk⟩ := timed trivial
    cases isOk
  · refine ⟨trivial, fun answer _ => ⟨now, ⟨.now, .ok now⟩ :: past, ?_⟩⟩
    have same : responses (⟨.now, .ok now⟩ :: past) = responses past := rfl
    refine ⟨?_, unfinalized, carries.cons nofun, by rwa [same]⟩
    rw [same, ← isConclusion now]

/-- The POST of a round. -/
theorem Carries.post (carries : Carries deployment endpoint delivery past) (timestamp : Nat)
    (answer : Except ServiceError Nat) :
    Carries deployment endpoint delivery
      (⟨.post (deliveryPost deployment endpoint delivery
        (deployment.libraries.stringify delivery.payload) timestamp), answer⟩ :: past) := by
  intro performed member post isPost
  rcases List.mem_cons.mp member with rfl | older
  · exact ⟨timestamp, (Call.post.inj isPost).symm⟩
  · exact carries performed older post isPost

/-- A round whose POST fails leaves the loop as it found it, one round later. -/
theorem Trying.failed (trying : Trying deployment endpoint delivery (remaining + 1) attempts
      lastError responseStatus past) (timestamp : Nat) (answer : Except ServiceError Nat)
    (failure : isSuccess answer = false) :
    Trying deployment endpoint delivery remaining (attempts + 1) (complaint answer)
      answer.toOption (⟨.post (deliveryPost deployment endpoint delivery
        (deployment.libraries.stringify delivery.payload) timestamp), answer⟩ :: past) := by
  have responses' := @responses_post past (deliveryPost deployment endpoint delivery
    (deployment.libraries.stringify delivery.payload) timestamp) delivery.id rfl answer
  have rounds := trying.rounds
  exact {
    unfinalized := by simpa [finalizes] using trying.unfinalized
    carries := trying.carries.post timestamp answer
    failures := by
      rw [responses', List.forall_mem_cons]
      exact ⟨failure, trying.failures⟩
    rounds := by
      rw [responses', List.length_cons]
      omega
    attempts := by
      rw [responses', List.length_cons, trying.attempts]
      omega
    lastError := by rw [responses']; rfl
    responseStatus := by rw [responses']; rfl }

theorem Trying.head (trying : Trying deployment endpoint delivery remaining attempts lastError
    responseStatus past) : (responses past).head?.any isSuccess = false := by
  cases answers : responses past with
  | nil => rfl
  | cons answer older => exact trying.failures answer (by simp [answers])

/-- The loop that has used up its rounds. -/
theorem Trying.exhausted (trying : Trying deployment endpoint delivery 0 attempts lastError
      responseStatus past) :
    Concludes deployment.config.maxAttempts (responses past) ∧
      ∀ now, WebhookDeliveryPatch.mk .failed attempts responseStatus lastError now =
        conclusion delivery (responses past) now := by
  refine ⟨⟨fun response member => trying.failures response (List.mem_of_mem_tail member),
    trying.rounds.le, .inr trying.rounds⟩, fun now => ?_⟩
  rw [conclusion, trying.head, ← trying.attempts, ← trying.lastError, ← trying.responseStatus]
  rfl

/-- The loop that has reached its receiver. -/
theorem Trying.succeeded (trying : Trying deployment endpoint delivery (remaining + 1) attempts
      lastError responseStatus past) {status : Nat} (success : isOk status = true) :
    Concludes deployment.config.maxAttempts (.ok status :: responses past) ∧
      ∀ now, WebhookDeliveryPatch.mk .succeeded (attempts + 1) (some status) none now =
        conclusion delivery (.ok status :: responses past) now := by
  have isSuccess' : isSuccess (.ok status) = true := success
  have rounds := trying.rounds
  refine ⟨⟨trying.failures, ?_, .inl isSuccess'⟩, fun now => ?_⟩
  · rw [List.length_cons]
    omega
  · simp [conclusion, isSuccess', complaint_of_success isSuccess', trying.attempts,
      Except.toOption, Nat.add_assoc]

theorem attempts_attemptLoop {i : Nat} (trying : Trying deployment endpoint delivery remaining
      attempts lastError responseStatus past) :
    (attemptLoop deployment endpoint delivery
      (deployment.libraries.stringify delivery.payload) remaining i attempts lastError
      responseStatus).Conforms Timed (fun _ call => call.Attempts)
      (fun later outcome => ∃ lastAttemptAt earlier,
        Attempted deployment endpoint delivery later outcome lastAttemptAt earlier) past := by
  induction remaining generalizing i attempts lastError responseStatus past with
  | zero =>
      obtain ⟨concludes, isConclusion⟩ := trying.exhausted
      exact attempts_finalize trying.unfinalized trying.carries concludes isConclusion
  | succ remaining ih =>
      refine conforms_call_bind.mpr ⟨trivial, fun err timed => ?_, fun now _ => ?_⟩
      · obtain ⟨value, isOk⟩ := timed trivial
        cases isOk
      have trying := trying.timer .now trivial (.ok now)
      generalize (⟨.now, .ok now⟩ :: past : History signature) = past at trying ⊢
      -- the backoff after a failed round, and the rounds that are left
      have again : ∀ later lastError' responseStatus', Trying deployment endpoint delivery
          remaining (attempts + 1) lastError' responseStatus' later →
          (do backoff deployment remaining i
              attemptLoop deployment endpoint delivery
                (deployment.libraries.stringify delivery.payload) remaining (i + 1)
                (attempts + 1) lastError' responseStatus' : Promise WebhookDelivery).Conforms
            Timed (fun _ call => call.Attempts) (fun later outcome => ∃ lastAttemptAt earlier,
              Attempted deployment endpoint delivery later outcome lastAttemptAt earlier)
            later := by
        intro later lastError' responseStatus' trying
        unfold backoff
        split
        · refine conforms_call_bind.mpr ⟨trivial, fun err timed => ?_, fun _ _ => ?_⟩
          · obtain ⟨value, isOk⟩ := timed trivial
            cases isOk
          · exact ih (trying.timer (.sleep _) trivial _)
        · exact ih trying
      rw [conforms_bind]
      refine conforms_call_tryCatch.mpr ⟨trivial, fun err _ => ?_, fun status _ => ?_⟩
      · exact again _ _ _ (trying.failed (now / 1000) (.error err) rfl)
      · refine (andThen_ok _ _).mpr ?_
        simp only
        split
        · rename_i success
          obtain ⟨concludes, isConclusion⟩ := trying.succeeded success
          refine attempts_finalize ?_ (trying.carries.post (now / 1000) (.ok status)) ?_ ?_
          · simpa [finalizes] using trying.unfinalized
          · rwa [responses_post rfl]
          · rwa [responses_post rfl]
        · rename_i failure
          have isFailure : isSuccess (.ok status) = false := Bool.eq_false_iff.mpr failure
          have isComplaint : complaint (.ok status) =
              some ("Non-2xx response: " ++ status.repr) := if_neg failure
          exact again _ _ _ (isComplaint ▸ trying.failed (now / 1000) (.ok status) isFailure)

/-- The whole loop, in a thread that has POSTed nothing yet. -/
theorem attempts_attempt (unfinalized : past.any finalizes = false)
    (unposted : ∀ performed ∈ past, ∀ post, performed.call ≠ .post post) :
    (attempt deployment endpoint delivery).Conforms Timed (fun _ call => call.Attempts)
      (fun later outcome => ∃ lastAttemptAt earlier,
        Attempted deployment endpoint delivery later outcome lastAttemptAt earlier) past := by
  have nothing : responses past = [] := by
    refine List.filterMap_eq_nil_iff.mpr fun performed member => ?_
    obtain ⟨call, answer⟩ := performed
    cases call with
    | post post => exact absurd rfl (unposted _ member post)
    | _ => rfl
  exact attempts_attemptLoop {
    unfinalized := unfinalized
    carries := fun performed member post isPost => absurd isPost (unposted performed member post)
    failures := by simp [nothing]
    rounds := by simp [nothing]
    attempts := by simp [nothing]
    lastError := by simp [nothing]
    responseStatus := by simp [nothing] }

end Loop

/-! ## The rounds of a sequence of outcomes -/

/-- The position of the first 2xx, counted from 1, if it is within the limit, and the limit
otherwise. -/
def rounds (outcomes : Nat → Except ServiceError Nat) (limit : Nat) : Nat :=
  ((List.range limit).find? fun i => isSuccess (outcomes i)).elim limit (· + 1)

section Rounds

variable {outcomes : Nat → Except ServiceError Nat} {limit count : Nat}

/-- The first answers of the sequence, the newest first. -/
def answersUpTo (outcomes : Nat → Except ServiceError Nat) : Nat → List (Except ServiceError Nat)
  | 0 => []
  | count + 1 => outcomes count :: answersUpTo outcomes count

theorem length_answersUpTo : (answersUpTo outcomes count).length = count := by
  induction count with
  | zero => rfl
  | succ count ih => rw [answersUpTo, List.length_cons, ih]

theorem mem_answersUpTo {i : Nat} (below : i < count) :
    outcomes i ∈ answersUpTo outcomes count := by
  induction count with
  | zero => exact absurd below (Nat.not_lt_zero i)
  | succ count ih =>
      rcases Nat.lt_succ_iff_lt_or_eq.mp below with earlier | rfl
      · exact List.mem_cons_of_mem _ (ih earlier)
      · exact List.mem_cons_self

/-- The answers that end the loop are those up to its last round. -/
theorem rounds_of_concludes (positive : 1 ≤ limit)
    (concludes : Concludes limit (answersUpTo outcomes count)) :
    count = rounds outcomes limit := by
  obtain ⟨failures, bounded, ended⟩ := concludes
  rw [length_answersUpTo] at bounded ended
  cases count with
  | zero =>
      rcases ended with success | isLimit
      · cases success
      · omega
  | succ last =>
      have earlier : ∀ i < last, isSuccess (outcomes i) = false :=
        fun i below => failures _ (mem_answersUpTo below)
      cases newest : isSuccess (outcomes last) with
      | true =>
          have first : (List.range limit).find? (fun i => isSuccess (outcomes i)) = some last := by
            rw [List.find?_range_eq_some]
            exact ⟨newest, List.mem_range.mpr bounded, by simpa using earlier⟩
          rw [rounds, first]
          rfl
      | false =>
          have isLimit : last + 1 = limit := by
            rcases ended with success | isLimit
            · rw [answersUpTo, List.head?_cons, Option.any_some, newest] at success
              cases success
            · exact isLimit
          have none : (List.range limit).find? (fun i => isSuccess (outcomes i)) = none := by
            rw [List.find?_range_eq_none]
            intro i below
            rcases Nat.lt_succ_iff_lt_or_eq.mp (isLimit.symm ▸ below) with before | rfl
            · simp [earlier i before]
            · simp [newest]
          rw [rounds, none]
          exact isLimit

end Rounds

/-! ## Against every sequence of outcomes -/

section Attempt

variable {deployment : Deployment} {endpoint : WebhookEndpoint} {delivery : WebhookDelivery}
variable {answers : Strategy signature} {outcomes : Nat → Except ServiceError Nat}

/-- The answers in a history are the first outcomes of the sequence. -/
theorem responses_of_answered
    (answered : ∀ past post, answers past (.post post) = outcomes (posted past))
    {past : History signature}
    (played : ∀ newer older performed, past = newer ++ performed :: older →
      performed.answer = answers older performed.call) :
    responses past = answersUpTo outcomes (posted past) := by
  induction past with
  | nil => rfl
  | cons performed past ih =>
      have rest := ih fun newer older other split =>
        played (performed :: newer) older other (by rw [split, List.cons_append])
      obtain ⟨call, answer⟩ := performed
      obtain rfl : answer = answers past call := played [] past _ rfl
      cases isPost : isDeliveryPost ⟨call, answers past call⟩ with
      | true =>
          cases call with
          | post post =>
              have isDelivery : post.delivery.isSome = true := isPost
              rw [responses_cons, posted, List.countP_cons_of_pos isPost, ← posted, rest,
                answersUpTo, answered]
              simp [Call.response, isDelivery]
          | _ => cases isPost
      | false =>
          have noResponse : Call.response call (answers past call) = none := by
            have blind := response_isSome ⟨call, answers past call⟩
            rw [isPost] at blind
            exact Option.isSome_eq_false_iff.mp blind |> Option.isNone_iff_eq_none.mp
          rw [responses_cons, posted, List.countP_cons_of_neg (by simp [isPost]), ← posted, rest]
          simp [noResponse]

/-- For every sequence of outcomes, one call of `attempt` POSTs up to the first 2xx or the
last round, and then writes how the last round went. -/
theorem attempt_retries (deployment : Deployment) (endpoint : WebhookEndpoint)
    (delivery : WebhookDelivery) (positive : 1 ≤ deployment.config.maxAttempts)
    (answers : Strategy signature) (outcomes : Nat → Except ServiceError Nat)
    (timers : ∀ past call, call.IsTimer → ∃ value, answers past call = .ok value)
    (answered : ∀ past post, answers past (.post post) = outcomes (posted past)) :
    ∃ past patch outcome,
      (attempt deployment endpoint delivery).play answers [] =
        (⟨.write (.update .webhookDelivery delivery.id patch), outcome⟩ :: past, outcome) ∧
      past.any finalizes = false ∧
      posted past = rounds outcomes deployment.config.maxAttempts ∧
      (∀ performed ∈ past, ∀ post, performed.call = .post post →
        post.body = deployment.libraries.stringify delivery.payload ∧
          post.eventId = some delivery.eventId ∧ post.delivery = some delivery.id) ∧
      patch.attempts = delivery.attempts + posted past ∧
      patch.responseStatus = (outcomes (posted past - 1)).toOption ∧
      if isSuccess (outcomes (posted past - 1)) then
        patch.status = .succeeded ∧ patch.error = none
      else patch.status = .failed ∧ patch.error ≠ none := by
  obtain ⟨lastAttemptAt, past, last, unfinalized, carries, concludes⟩ :=
    (@attempts_attempt deployment endpoint delivery [] rfl (by simp)).played
      fun past call isTimer => timers past call isTimer
  have isResponses : responses past = answersUpTo outcomes (posted past) :=
    responses_of_answered answered fun newer older performed split =>
      play_answered answers (by rw [last, split, ← List.cons_append])
  rw [isResponses] at last concludes
  have isRounds := rounds_of_concludes positive concludes
  have newest : (answersUpTo outcomes (posted past)).head? =
      some (outcomes (posted past - 1)) := by
    cases count : posted past with
    | zero =>
        rw [count] at concludes
        rcases concludes.ended with success | isLimit
        · cases success
        · have noRound : deployment.config.maxAttempts = 0 := isLimit.symm
          omega
    | succ count => rfl
  refine ⟨past, _, _, Prod.ext last rfl, unfinalized, isRounds,
    fun performed member post isPost => ?_, ?_, ?_, ?_⟩
  · obtain ⟨timestamp, rfl⟩ := carries performed member post isPost
    exact ⟨rfl, rfl, rfl⟩
  · rw [conclusion, length_answersUpTo]
  · rw [conclusion, newest]
    rfl
  · rw [conclusion, newest]
    split
    · rename_i success
      exact ⟨if_pos success, complaint_of_success success⟩
    · rename_i failure
      exact ⟨if_neg failure, complaint_of_failure (Bool.eq_false_iff.mpr failure)⟩

end Attempt

namespace Sample

def endpoint : WebhookEndpoint where
  id := "ep"
  consumerId := "c"
  url := "https://alice.example/hook"
  secret := "whsec"
  description := none
  enabled := true
  eventTypes := []
  createdAt := 0

/-- A delivery that was POSTed once before. -/
def redelivered : WebhookDelivery where
  id := "d"
  endpointId := "ep"
  eventType := .paymentIntentCreated
  eventId := "evt_u"
  payload := ⟨"evt_u", .paymentIntentCreated, 0, intent⟩
  status := .failed
  attempts := 1
  responseStatus := none
  error := none
  lastAttemptAt := none
  createdAt := 0

/-- An exception, then a 503, then 200s. -/
def outcomes : Nat → Except ServiceError Nat
  | 0 => .error (.other "fetch failed")
  | 1 => .ok 503
  | _ => .ok 200

/-- The receiver answers with these outcomes, and the connection to the database is lost. -/
def answers : Strategy signature
  | _, .now => .ok 0
  | _, .sleep _ => .ok ()
  | past, .post _ => outcomes (posted past)
  | _, _ => .error disconnected

end Sample

/-- The third round succeeds; its statement is lost, and no fourth round follows. -/
theorem attempt_retries_of_outcomes :
    ∃ past patch, ((attempt Sample.deployment Sample.endpoint Sample.redelivered).play
        Sample.answers []).1 = ⟨.write (.update .webhookDelivery "d" patch),
          .error disconnected⟩ :: past ∧
      posted past = 3 ∧ patch.attempts = 4 ∧ patch.status = .succeeded ∧ patch.error = none := by
  obtain ⟨past, patch, outcome, played, -, isRounds, -, attempts, -, written⟩ :=
    attempt_retries Sample.deployment Sample.endpoint Sample.redelivered (by decide)
      Sample.answers Sample.outcomes
      (fun past call isTimer => by
        cases call with
        | now => exact ⟨0, rfl⟩
        | sleep milliseconds => exact ⟨(), rfl⟩
        | _ => exact isTimer.elim)
      fun past post => rfl
  have three : posted past = 3 := isRounds.trans (by decide)
  rw [three] at attempts written
  obtain ⟨status, error⟩ := written
  have split : ((attempt Sample.deployment Sample.endpoint Sample.redelivered).play
      Sample.answers []).1 = [] ++ ⟨.write (.update .webhookDelivery "d" patch), outcome⟩ ::
        past := congrArg Prod.fst played
  have lost : outcome = .error disconnected := play_answered Sample.answers split
  refine ⟨past, patch, ?_, three, attempts, status, error⟩
  rw [split, lost]
  rfl

end CosmosPay
