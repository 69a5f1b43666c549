import CosmosPay.Attempts

/-!
# Endpoint changes and later sends

The dispatcher sends with the endpoint that it has read: `handleEvent` from its listing,
`redeliver` from its own lookup.  A POST therefore respects what has been committed by then
exactly as far as the statements since that reading left the endpoint as it was read.
-/

namespace CosmosPay

open Awaiting Tables WebhookDispatcher

/-! ## The endpoint by the trace -/

/-- Does the dispatcher read this endpoint here? -/
def reads (endpoint : WebhookEndpoint) : Performed signature → Bool
  | ⟨.query (.enabledEndpoints _), .ok rows⟩ => rows.contains endpoint
  | ⟨.query (.endpoint _), .ok found⟩ => decide (found = some endpoint)
  | _ => false

/-- What a call makes of an endpoint. -/
def amend (id : String) : Performed signature → Option WebhookEndpoint → Option WebhookEndpoint
  | ⟨.write (.update .webhookEndpoint key patch), .ok _⟩, row =>
      if key = id then row.map (Model.webhookEndpoint.apply patch) else row
  | ⟨.write (.delete .webhookEndpoint key), .ok _⟩, row => if key = id then none else row
  | _, row => row

/-- An endpoint as the dispatcher has last read it, with all that was committed since. -/
def standing (endpoint : WebhookEndpoint) : List (Entry signature) → Option WebhookEndpoint
  | [] => none
  | entry :: older =>
      if reads endpoint entry.performed then some endpoint
      else amend endpoint.id entry.performed (standing endpoint older)

section Standing

variable {deployment : Deployment}
variable {allows : Config (service deployment) → Label (service deployment) → Prop}
variable {config config' : Config (service deployment)} {state : World}

omit deployment allows config config' state in
/-- What the dispatcher reads is stored. -/
theorem find?_of_reads {before after : World} {performed : Performed signature}
    (performs : Performs before after performed) {endpoint : WebhookEndpoint}
    (isRead : reads endpoint performed = true) :
    after.store.find? .webhookEndpoint endpoint.id = some endpoint := by
  unfold reads at isRead
  split at isRead
  · rename_i username rows
    obtain ⟨rfl, order, answered⟩ := performs.of_query
    have member := (arrange?_eq_some answered).2.2 endpoint (by simpa using isRead)
    exact Table.find?_key (List.mem_filter.mp member).1
  · rename_i id found
    obtain rfl : found = some endpoint := of_decide_eq_true isRead
    obtain ⟨rfl, order, answered⟩ := performs.of_query
    have stored := Option.some.inj answered
    have isKey : endpoint.id = id := Table.key_of_find? stored
    rwa [isKey]
  · cases isRead

omit deployment allows config config' state in
/-- A call makes of the stored row what `amend` says. -/
theorem find?_of_amend {before after : World} {performed : Performed signature}
    (performs : Performs before after performed) {id : String} {row old : WebhookEndpoint}
    (stored : before.store.find? .webhookEndpoint id = some old)
    (amended : amend id performed (some old) = some row) :
    after.store.find? .webhookEndpoint id = some row := by
  unfold amend at amended
  split at amended
  · rename_i key patch value
    obtain ⟨previous, -, change⟩ := performs.of_update
    rw [change.lookup]
    split at amended
    · rename_i isKey
      subst isKey
      obtain rfl := Option.some.inj (change.found.symm.trans stored)
      rw [if_pos rfl]
      exact amended
    · rename_i differ
      rw [if_neg differ, stored]
      exact amended
  · rename_i key value
    rw [performs.of_delete.lookup]
    split at amended
    · cases amended
    · rename_i differ
      rw [if_neg differ, stored]
      exact amended
  · rename_i noUpdate noDelete
    obtain rfl := Option.some.inj amended
    cases performs.rows .webhookEndpoint with
    | kept same => exact (same id).trans stored
    | created new drawn createdAt isCreate fresh change =>
        have differ : drawn ≠ id := fun same => fresh (same ▸ Store.issued_of_find? stored)
        rw [change.lookup, if_neg differ]
        exact stored
    | updated key patch previous isUpdate change => exact absurd isUpdate (noUpdate _ _ _)
    | deleted key previous isDelete change => exact absurd isDelete (noDelete _ _)
    | cascaded key previous isDelivery isDelete change => cases isDelivery

/-- The endpoint by the trace is the stored one. -/
theorem find?_of_standing (run : Run allows (Config.initial state) config)
    {endpoint row : WebhookEndpoint} (stands : standing endpoint config.trace = some row) :
    config.state.store.find? .webhookEndpoint endpoint.id = some row := by
  revert row
  refine run.keeps (I := fun config : Config (service deployment) => ∀ {row : WebhookEndpoint},
    standing endpoint config.trace = some row →
      config.state.store.find? .webhookEndpoint endpoint.id = some row) ?_ ?_
  · intro row stands
    cases stands
  · intro config config' _ ih step row stands
    rcases step_cases step with ⟨sameTrace, drifts⟩ | ⟨thread, choice, request, performed, resumes⟩
    · rw [sameTrace] at stands
      rw [drifts.store]
      exact ih stands
    · rw [resumes.trace, standing] at stands
      split at stands
      · rename_i isRead
        obtain rfl := Option.some.inj stands
        exact find?_of_reads resumes.performs isRead
      · cases before : standing endpoint config.trace with
        | some old =>
            rw [before] at stands
            exact find?_of_amend resumes.performs (ih before) stands
        | none =>
            rw [before] at stands
            unfold amend at stands
            split at stands
            · split at stands <;> cases stands
            · split at stands <;> cases stands
            · cases stands

/-! ## POSTs that start -/

/-- The POST that a thread is paused at, with the request of the thread. -/
def sending? (config : Config (service deployment)) (thread : Nat) :
    Option (Request × WebhookPost) :=
  match config.threads[thread]? with
  | some ⟨request, .await (.post post) _⟩ => some (request, post)
  | _ => none

/-- In this step the thread comes to a POST of a delivery. -/
structure StartsPost (config config' : Config (service deployment)) (thread : Nat)
    (request : Request) (post : WebhookPost) : Prop where
  moved : config'.past thread ≠ config.past thread
  sending : sending? config' thread = some (request, post)
  isDelivery : post.delivery.isSome = true

/-- The POST goes to an endpoint that is there and enabled, and is signed with its secret. -/
def Applied (config : Config (service deployment)) (thread : Nat) (request : Request)
    (post : WebhookPost) : Prop :=
  ∃ endpoint row timestamp, receiver request (config.past thread) = some endpoint ∧
    post.url = endpoint.url ∧
    config.state.store.find? .webhookEndpoint endpoint.id = some row ∧ row.enabled = true ∧
    post.signature = buildSignatureHeader deployment row.secret post.body timestamp

/-- The statements that were committed since the dispatcher has read the endpoint of this
thread leave it enabled and with the secret that was read. -/
def upToDate (config : Config (service deployment)) (thread : Nat) (request : Request) : Bool :=
  (receiver request (config.past thread)).all fun endpoint =>
    (standing endpoint config.trace).any fun row =>
      row.enabled && decide (row.secret = endpoint.secret)

/-- A thread comes to a POST only while its endpoint is up to date. -/
def timely (config : Config (service deployment)) : Label (service deployment) → Bool
  | .resume thread choice =>
      (step? config (.resume thread choice)).all fun config' =>
        (sending? config' thread).all fun (request, post) =>
          post.delivery.isNone || upToDate config' thread request
  | _ => true

abbrev TimelyRun : Config (service deployment) → Config (service deployment) → Prop :=
  Run fun config label => timely config label = true

theorem upToDate_of_starts
    (step : Step (fun config label => timely config label = true) config config')
    {thread : Nat} {request : Request} {post : WebhookPost}
    (starts : StartsPost config config' thread request post) :
    upToDate config' thread request = true := by
  cases step with
  | issue request _ => exact absurd rfl starts.moved
  | move _ _ _ => exact absurd rfl starts.moved
  | resume resumed choice allowed paused performed =>
      by_cases same : resumed = thread
      · subst same
        have stepped : step? config (.resume resumed choice) = some _ :=
          step?_eq_advance paused performed
        simp only [timely] at allowed
        rw [stepped, Option.all_some, starts.sending, Option.all_some] at allowed
        have isDelivery : post.delivery.isNone = false := by
          simp [← Option.not_isSome, starts.isDelivery]
        rwa [isDelivery, Bool.false_or] at allowed
      · exact absurd (Config.past_advance_of_ne config same _ _ _ _) starts.moved

/-- A thread is paused at a POST of a delivery with the endpoint that it knows. -/
theorem sends_of_sending (run : Run allows (Config.initial state) config) {thread : Nat}
    {request : Request} {post : WebhookPost}
    (sending : sending? config thread = some (request, post))
    (isDelivery : post.delivery.isSome = true) :
    Sends deployment request (config.past thread) post := by
  unfold sending? at sending
  split at sending
  · rename_i paused
    obtain ⟨rfl, rfl⟩ := Prod.mk.inj (Option.some.inj sending)
    have permitted : permitsDelivery deployment _ (config.past thread) (.post _) :=
      run.permitted deliveries_fulfilled paused
    rcases permitted.2 with isPing | sends
    · rw [isPing] at isDelivery
      cases isDelivery
    · exact sends
  · cases sending

/-- Endpoint changes take effect on later sends: in a run in which no change of an endpoint is
committed between the reading of it by the dispatcher and a POST that starts, every such POST
goes to an endpoint that is there and enabled, and is signed with its secret. -/
theorem endpoint_changes_apply (run : TimelyRun (.initial state) config)
    (step : Step (fun config label => timely config label = true) config config')
    {thread : Nat} {request : Request} {post : WebhookPost}
    (starts : StartsPost config config' thread request post) :
    Applied config' thread request post := by
  have run' : TimelyRun (.initial state) config' := run.tail step
  have sends := sends_of_sending run' starts.sending starts.isDelivery
  obtain ⟨endpoint, delivery, timestamp, isReceiver, -, rfl⟩ := sends.signed
  have current := upToDate_of_starts step starts
  rw [upToDate, isReceiver, Option.all_some] at current
  obtain ⟨row, stands, isCurrent⟩ := (Option.any_eq_true _ _).mp current
  obtain ⟨isEnabled, isSecret⟩ := Bool.and_eq_true_iff.mp isCurrent
  have sameSecret : row.secret = endpoint.secret := of_decide_eq_true isSecret
  refine ⟨endpoint, row, timestamp, isReceiver, rfl, find?_of_standing run' stands,
    isEnabled, ?_⟩
  rw [sameSecret]
  rfl

end Standing

/-! ## A loop with an old endpoint -/

namespace Sample

/-- A rotation of the secret as thread `thread`, run to its end. -/
def rotate (thread : Nat) (username endpointId : String) : List (Label (service deployment)) :=
  [.issue (.webhooks (.rotateSecret (caller username) endpointId)), .resume thread .serve,
    .resume thread (.bytes (List.replicate 24 8)), .resume thread .serve]

/-- A request to disable an endpoint as thread `thread`, run to its end. -/
def disable (thread : Nat) (username endpointId : String) : List (Label (service deployment)) :=
  .issue (.webhooks (.update (caller username) endpointId
    ⟨.undefined, .undefined, .value false, .undefined⟩)) :: serve thread 2

/-- One step further. -/
def next (config : Config (service deployment)) (label : Label (service deployment)) :
    Config (service deployment) :=
  (step? config label).getD config

end Sample

theorem step?_next {config : Config (service Sample.deployment)}
    {label : Label (service Sample.deployment)} (possible : (step? config label).isSome = true) :
    step? config label = some (Sample.next config label) := by
  obtain ⟨config', isNext⟩ := Option.isSome_iff_exists.mp possible
  rw [Sample.next, isNext, Option.getD_some]

/-- A thread that has moved and is paused at a POST of a delivery has started it. -/
theorem exists_startsPost {config config' : Config (service Sample.deployment)} {thread : Nat}
    (moved : (config'.past thread).length ≠ (config.past thread).length)
    (sends : (sending? config' thread).any (fun sent => sent.2.delivery.isSome) = true) :
    ∃ request post, StartsPost config config' thread request post := by
  obtain ⟨⟨request, post⟩, sending, isDelivery⟩ := (Option.any_eq_true _ _).mp sends
  exact ⟨request, post, fun same => moved (congrArg List.length same), sending, isDelivery⟩

/-- A fresh delivery to an endpoint whose secret was rotated before. -/
def rotatedDelivery : Config (service Sample.deployment) :=
  after timely
    (Sample.register 0 "alice" "c" "ep" ++ Sample.rotate 1 "alice" "ep" ++
      Sample.create 2 "alice" "7" "c'" "pi" ++ Sample.fanOut 3 "ep" "d")
    Sample.start

/-- It starts its first POST. -/
def rotatedPost : Config (service Sample.deployment) :=
  Sample.next rotatedDelivery (.resume 4 .serve)

theorem endpoint_changes_apply_of_rotatedPost :
    ∃ request post, StartsPost rotatedDelivery rotatedPost 4 request post ∧
      Applied rotatedPost 4 request post := by
  have stepped : step? rotatedDelivery (.resume 4 .serve) = some rotatedPost :=
    step?_next (by decide +kernel)
  have starts : ∃ request post, StartsPost rotatedDelivery rotatedPost 4 request post :=
    exists_startsPost (by decide +kernel) (by decide +kernel)
  obtain ⟨request, post, starts⟩ := starts
  have allowed : timely rotatedDelivery (.resume 4 .serve) = true := by
    decide +kernel
  exact ⟨request, post, starts,
    endpoint_changes_apply (run_after (fun _ _ checked => checked) _ _)
      (.of_step? allowed stepped) starts⟩

/-- A loop waits for its second round while its endpoint is disabled. -/
def disabledMeanwhile : Config (service Sample.deployment) :=
  after (fun _ _ => true)
    (Sample.delivery ++ Sample.post 3 500 ++ Sample.disable 4 "alice" "ep" ++ Sample.serve 3 1)
    Sample.start

/-- Then it starts that round. -/
def disabledPost : Config (service Sample.deployment) :=
  Sample.next disabledMeanwhile (.resume 3 .serve)

/-- In general a POST may go to an endpoint that is disabled by then. -/
theorem not_endpoint_changes_apply :
    ¬ ∀ (state : World) (config config' : Config (service Sample.deployment)),
      Run (fun _ _ => True) (.initial state) config →
      Step (fun _ _ => True) config config' →
      ∀ thread request post, StartsPost config config' thread request post →
        Applied config' thread request post := by
  intro applied
  have stepped : step? disabledMeanwhile (.resume 3 .serve) = some disabledPost :=
    step?_next (by decide +kernel)
  have starts : ∃ request post, StartsPost disabledMeanwhile disabledPost 3 request post :=
    exists_startsPost (by decide +kernel) (by decide +kernel)
  obtain ⟨request, post, starts⟩ := starts
  obtain ⟨endpoint, row, timestamp, isReceiver, -, found, isEnabled, -⟩ :=
    applied Sample.world disabledMeanwhile disabledPost (run_after (fun _ _ _ => trivial) _ _)
      (.of_step? trivial stepped) 3 request post starts
  have receiverId : (sending? disabledPost 3).all (fun sent =>
      (receiver sent.1 (disabledPost.past 3)).all fun known => known.id = "ep") = true := by
    decide +kernel
  have isDisabled : (disabledPost.state.store.find? .webhookEndpoint "ep").all
      (fun row => !row.enabled) = true := by
    decide +kernel
  rw [starts.sending, Option.all_some, isReceiver, Option.all_some] at receiverId
  rw [of_decide_eq_true receiverId] at found
  rw [found, Option.all_some, isEnabled] at isDisabled
  cases isDisabled

end CosmosPay
