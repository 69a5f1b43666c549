import CosmosPay.Isolation
import CosmosPay.Origins

/-!
# What clients are told of deliveries

Deliveries are listed while their loops run, and overlapping loops overwrite each other.  A
client still reads of no POST that was not made, of no answer that was not given, and of no
other event than the POSTs were about.
-/

namespace CosmosPay

open Awaiting Tables

section DeliveryLog

variable {deployment : Deployment}
variable {allows : Config (service deployment) → Label (service deployment) → Prop}
variable {config config' : Config (service deployment)} {state : World}

/-! ## Rows -/

/-- What the row says of the POSTs of its delivery is true of those made by then. -/
structure Genuine (config : Config (service deployment)) (row : WebhookDelivery) : Prop where
  attempts : row.attempts ≤ postsOf row.id config.trace
  outcome : Attested deployment config.trace row
  message : ∀ thread post answer, ⟨thread, .post post, answer⟩ ∈ config.trace →
    post.delivery = some row.id → Conveys deployment row post

omit allows config config' state in
theorem Conveys.of_event_eq {origin row : WebhookDelivery} {post : WebhookPost}
    (conveys : Conveys deployment origin post) (same : origin.event = row.event) :
    Conveys deployment row post where
  delivery := conveys.delivery.trans (congrArg (some ∘ DeliveredEvent.id) same)
  event := conveys.event.trans (congrArg (WebhookEventType.name ∘ DeliveredEvent.eventType) same)
  eventId := conveys.eventId.trans (congrArg (some ∘ DeliveredEvent.eventId) same)
  body := conveys.body.trans
    (congrArg (deployment.libraries.stringify ∘ DeliveredEvent.payload) same)

/-- Whenever they are made, the POSTs of a delivery convey what its row was inserted with. -/
theorem conveys_of_originates (start : state.store = .empty)
    (run : Run allows (Config.initial state) config) {row : WebhookDelivery}
    (originates : @Originates .webhookDelivery _ config.trace WebhookDelivery.event row)
    {thread : Nat} {post : WebhookPost} {answer : Except ServiceError Nat}
    (made : ⟨thread, .post post, answer⟩ ∈ config.trace) (isRow : post.delivery = some row.id) :
    Conveys deployment row post := by
  obtain ⟨origin, inserted, same⟩ := originates
  have isDelivery : post.delivery ≠ none := by simp [isRow]
  obtain ⟨origin', inserted', conveys⟩ := origin_of_post start run made isDelivery
  have sameRow : origin.id = row.id := congrArg DeliveredEvent.id same
  have sameId : origin'.id = origin.id :=
    (Option.some.inj (conveys.delivery.symm.trans isRow)).trans sameRow.symm
  obtain rfl := (drawnOnce_of_run run).unique origin' origin inserted' inserted sameId
  exact conveys.of_event_eq same

theorem postsOf_step (id : String) (step : Step allows config config') :
    postsOf id config.trace ≤ postsOf id config'.trace := by
  rcases step_cases step with ⟨same, -⟩ | ⟨_, _, _, _, resumes⟩
  · rw [same]
  · exact resumes.postsOf_le id

theorem postsOf_run (id : String) (run : Run allows config config') :
    postsOf id config.trace ≤ postsOf id config'.trace :=
  run.keeps (I := fun latest : Config (service deployment) =>
    postsOf id config.trace ≤ postsOf id latest.trace) (Nat.le_refl _)
    fun _ _ _ older step => older.trans (postsOf_step id step)

/-- A row that was stored at a moment of the run tells the truth at every later one. -/
theorem genuine_of_stored (start : state.store = .empty)
    (reached : Run allows (Config.initial state) config) (later : Run allows config config')
    {id : String} {row : WebhookDelivery}
    (found : config.state.store.find? .webhookDelivery id = some row) : Genuine config' row := by
  obtain rfl : row.id = id := Table.key_of_find? found
  have grows := trace_subset later
  have originates : @Originates .webhookDelivery _ config.trace WebhookDelivery.event row :=
    originates_of_run (fun _ _ => rfl) start reached found
  exact {
    attempts := ((bounded_of_run start reached).rows _ row found).trans (postsOf_run _ later)
    outcome := (allAttested_of_run start reached _ row found).mono grows
    message := fun thread post answer made isRow =>
      conveys_of_originates start (reached.trans later) (originates.mono grows) made isRow }

/-! ## Entries of the log -/

/-- The POST is one of the entry. -/
structure WebhookLog.Names (log : WebhookLog) (post : WebhookPost) : Prop where
  delivery : post.delivery = some log.id
  event : post.event = log.eventType.name
  eventId : post.eventId = some log.eventId

/-- What an entry says has happened: nothing yet, a POST that its receiver took, or one that
went wrong.  A loop of no rounds fails without one. -/
inductive WebhookLog.Happened (deployment : Deployment) (trace : List (Entry signature))
    (log : WebhookLog) : Prop where
  | pending (status : log.status = "pending") (attempts : log.attempts = 0)
      (responseStatus : log.responseStatus = none) (error : log.error = none)
  | ok (thread : Nat) (post : WebhookPost) (answer : Nat)
      (made : ⟨thread, .post post, .ok answer⟩ ∈ trace) (names : log.Names post)
      (success : 200 ≤ answer ∧ answer < 300) (status : log.status = "ok")
      (responseStatus : log.responseStatus = some answer) (error : log.error = none)
  | fail (thread : Nat) (post : WebhookPost) (answer : Except ServiceError Nat)
      (made : ⟨thread, .post post, answer⟩ ∈ trace) (names : log.Names post)
      (failure : isSuccess answer = false) (status : log.status = "fail")
      (responseStatus : log.responseStatus = answer.toOption) (error : log.error = complaint answer)
      (complains : log.error ≠ none)
  | exhausted (noRounds : deployment.config.maxAttempts = 0) (status : log.status = "fail")
      (responseStatus : log.responseStatus = none) (error : log.error = none)

/-- The entry counts only POSTs that were made, and one of them went as it says. -/
structure WebhookLog.Holds (log : WebhookLog) (config : Config (service deployment)) : Prop where
  attempts : log.attempts ≤ postsOf log.id config.trace
  happened : log.Happened deployment config.trace

theorem Genuine.names {row : WebhookDelivery} (genuine : Genuine config row)
    (endpoints : List WebhookEndpoint) {thread : Nat} {post : WebhookPost}
    {answer : Except ServiceError Nat} (made : ⟨thread, .post post, answer⟩ ∈ config.trace)
    (isRow : post.delivery = some row.id) : (Analytics.webhookLog endpoints row).Names post where
  delivery := isRow
  event := (genuine.message thread post answer made isRow).event
  eventId := (genuine.message thread post answer made isRow).eventId

theorem isSuccess_iff (answer : Nat) :
    isSuccess (.ok answer) = true ↔ 200 ≤ answer ∧ answer < 300 := by
  simp [isSuccess, WebhookDispatcher.isOk]

/-- An entry says what its row says. -/
theorem Genuine.log {row : WebhookDelivery} (genuine : Genuine config row)
    (endpoints : List WebhookEndpoint) : (Analytics.webhookLog endpoints row).Holds config where
  attempts := genuine.attempts
  happened := by
    cases genuine.outcome with
    | untried status attempts responseStatus error lastAttemptAt =>
        exact .pending (congrArg Analytics.logStatus status) attempts responseStatus error
    | exhausted noRounds status responseStatus error =>
        exact .exhausted noRounds (congrArg Analytics.logStatus status) responseStatus error
    | answered thread post answer made isDelivery status responseStatus error =>
        have names := genuine.names endpoints made isDelivery
        have isStatus := congrArg Analytics.logStatus status
        cases success : isSuccess answer with
        | true =>
            rw [if_pos success] at isStatus
            cases answer with
            | ok code =>
                have isNone : row.error = none := error.trans (complaint_of_success success)
                exact .ok thread post code made names ((isSuccess_iff code).mp success) isStatus
                  responseStatus isNone
            | error err => cases success
        | false =>
            rw [if_neg (by simp [success])] at isStatus
            have complains : row.error ≠ none := error ▸ complaint_of_failure success
            exact .fail thread post answer made names success isStatus responseStatus error
              complains

/-! ## Replies -/

/-- As a delivery, the row tells the truth. -/
def Tellable (config : Config (service deployment)) : RowProperty
  | .webhookDelivery, row => Genuine config row
  | _, _ => True

theorem tellable_of_seenBy (start : state.store = .empty) {index : Nat} {username : String}
    {model : Model} {row : model.Row} (seen : SeenBy allows state config index username model row) :
    Tellable config model row := by
  obtain ⟨moment, reached, later, -, found, -⟩ := seen
  cases model with
  | webhookDelivery => exact genuine_of_stored start reached later found
  | _ => trivial

/-- Whatever is in flight while they are listed, every delivery that a client is shown and every
entry of a log that a client is shown is true: it counts no POST that was not made, it says of
one that was made how it went, and the POSTs were about the event that it names. -/
theorem deliveries_told (start : state.store = .empty)
    (run : Run allows (Config.initial state) config) {index : Nat} {request : Request}
    {reply : Reply} {username : String} (isCaller : request.caller? = some username)
    (lookup : config.threads[index]? = some ⟨request, .done (.ok reply)⟩) :
    reply.Tells (Tellable config) ∧
      ∀ page, reply = .webhookLogs page → ∀ log ∈ page.data, log.Holds config := by
  obtain ⟨shows, -⟩ := run.ensured tenancy_fulfilled lookup username isCaller
  have tells : reply.Tells (Tellable config) := (shows reply rfl).mono fun model row shows =>
    tellable_of_seenBy start (seenBy_of_shows start run lookup isCaller shows)
  refine ⟨tells, ?_⟩
  rintro page rfl log member
  obtain ⟨endpoints, row, -, genuine, rfl⟩ := tells log member
  exact Genuine.log genuine endpoints

end DeliveryLog

/-- Alice reads her log after a redelivery, while the first loop waits to write down that its
second POST has failed. -/
def readAtOnce : Config (service Sample.deployment) :=
  after (fun _ _ => true)
    (Sample.delivery ++ Sample.post 3 500 ++ Sample.redeliver 4 "alice" "ep" "d" ++
      Sample.post 4 200 ++ Sample.serve 4 2 ++ Sample.serve 3 1 ++ Sample.post 3 500 ++
      [.issue (.analytics (.webhookLogs (Sample.caller "alice") 100)), .resume 5 (.draw "c''"),
        .resume 5 (.arrange ["ep"]), .resume 5 (.arrange ["d"])])
    Sample.start

/-- The log that a finished program has returned. -/
def returnedLog? : Program signature Reply → Option WebhookLogPage
  | .done (.ok (.webhookLogs page)) => some page
  | _ => none

theorem eq_done_of_returnedLog? {code : Program signature Reply} {page : WebhookLogPage}
    (returned : returnedLog? code = some page) : code = .done (.ok (.webhookLogs page)) := by
  unfold returnedLog? at returned
  split at returned
  · rw [Option.some.inj returned]
  · cases returned

/-- The entry shows the redelivery alone: one of three POSTs. -/
theorem deliveries_told_of_readAtOnce :
    ∃ request page, readAtOnce.threads[5]? = some ⟨request, .done (.ok (.webhookLogs page))⟩ ∧
      (∀ log ∈ page.data, log.Holds readAtOnce) ∧
      page.data.map (fun log => (log.id, log.attempts, log.status)) = [("d", 1, "ok")] ∧
      postsOf "d" readAtOnce.trace = 3 := by
  have shown : (readAtOnce.threads[5]?).any (fun thread =>
      decide (Request.caller? thread.request = some "alice") &&
        (returnedLog? thread.code).any fun page =>
          page.data.map (fun log => (log.id, log.attempts, log.status)) = [("d", 1, "ok")]) =
            true := by
    decide +kernel
  obtain ⟨⟨request, code⟩, lookup, shows⟩ := (Option.any_eq_true _ _).mp shown
  obtain ⟨isCaller, isShown⟩ := Bool.and_eq_true_iff.mp shows
  obtain ⟨page, returned, isPage⟩ := (Option.any_eq_true _ _).mp isShown
  obtain rfl : code = _ := eq_done_of_returnedLog? returned
  have run : Run (fun _ _ => True) Sample.start readAtOnce :=
    run_after (fun _ _ _ => trivial) _ _
  obtain ⟨-, holds⟩ := deliveries_told rfl run (of_decide_eq_true isCaller) lookup
  exact ⟨request, page, lookup, holds page rfl, of_decide_eq_true isPage, by decide +kernel⟩

end CosmosPay
