import CosmosPay.AuditTrail
import CosmosPay.Mirror

/-!
# What a row was inserted as

An id is drawn once, so what no update changes of a row is as the one insertion of its id has
left it.  For a delivery this is the event: every POST of it, by its task or by a redelivery,
carries the same body.
-/

namespace CosmosPay

open Awaiting Tables

section Origins

variable {deployment : Deployment}
variable {allows : Config (service deployment) → Label (service deployment) → Prop}
variable {config config' : Config (service deployment)} {state : World} {model : Model}

/-! ## Insertions -/

/-- The row was inserted so. -/
def InsertedAs (trace : List (Entry signature)) (model : Model) (row : model.Row) : Prop :=
  ∃ thread new, ⟨thread, .write (.create model new), .ok row⟩ ∈ trace

theorem InsertedAs.mono {trace trace' : List (Entry signature)} {row : model.Row}
    (inserted : InsertedAs trace model row) (grows : trace ⊆ trace') :
    InsertedAs trace' model row := by
  obtain ⟨thread, new, member⟩ := inserted
  exact ⟨thread, new, grows member⟩

theorem inserted_cons {thread : Nat} {choice : Choice} {request : Request}
    {performed : Performed signature}
    (resumes : Resumes allows config config' thread choice request performed) {row : model.Row}
    (inserted : InsertedAs config'.trace model row) :
    InsertedAs config.trace model row ∨
      ∃ new, performed = ⟨.write (.create model new), .ok row⟩ := by
  obtain ⟨owner, new, member⟩ := inserted
  rw [resumes.trace] at member
  rcases List.mem_cons.mp member with isNew | older
  · exact .inr ⟨new, (Entry.mk.inj isNew).2.symm⟩
  · exact .inl ⟨owner, new, older⟩

/-- Each inserted id is reserved, and was inserted once. -/
structure DrawnOnce (model : Model) (config : Config (service deployment)) : Prop where
  issued : ∀ row, InsertedAs config.trace model row →
    model.indexes.key row ∈ config.state.store.issued
  unique : ∀ row row', InsertedAs config.trace model row → InsertedAs config.trace model row' →
    model.indexes.key row = model.indexes.key row' → row = row'

/-- An insertion draws an id that no earlier one has drawn. -/
theorem DrawnOnce.fresh (before : DrawnOnce model config) {thread : Nat} {choice : Choice}
    {request : Request} {new : model.New} {row old : model.Row}
    (resumes : Resumes allows config config' thread choice request
      ⟨.write (.create model new), .ok row⟩) (inserted : InsertedAs config.trace model old) :
    model.indexes.key old ≠ model.indexes.key row := by
  obtain ⟨drawn, fresh, rfl, -⟩ := resumes.performs.of_create
  intro same
  have known := before.issued old inserted
  rw [same, Model.key_make] at known
  exact fresh known

theorem DrawnOnce.resume (before : DrawnOnce model config) {thread : Nat} {choice : Choice}
    {request : Request} {performed : Performed signature}
    (resumes : Resumes allows config config' thread choice request performed) :
    DrawnOnce model config' := by
  constructor
  · intro row inserted
    rcases inserted_cons resumes inserted with older | ⟨new, isNew⟩
    · exact step_issued resumes.step _ (before.issued row older)
    · subst isNew
      obtain ⟨drawn, -, rfl, change⟩ := resumes.performs.of_create
      rw [change.issued, Model.key_make]
      exact List.mem_cons_self
  · intro row row' inserted inserted' same
    rcases inserted_cons resumes inserted with older | ⟨new, isNew⟩
    · rcases inserted_cons resumes inserted' with older' | ⟨new', isNew'⟩
      · exact before.unique row row' older older' same
      · subst isNew'
        exact absurd same (before.fresh resumes older)
    · subst isNew
      rcases inserted_cons resumes inserted' with older' | ⟨new', isNew'⟩
      · exact absurd same.symm (before.fresh resumes older')
      · cases isNew'
        rfl

theorem drawnOnce_of_run (run : Run allows (Config.initial state) config) :
    DrawnOnce model config := by
  refine run.keeps ?_ fun config config' reached before step => ?_
  · constructor
    · rintro row ⟨thread, new, member⟩
      cases member
    · rintro row row' ⟨thread, new, member⟩
      cases member
  · rcases step_cases step with ⟨sameTrace, drifts⟩ | ⟨_, _, _, _, resumes⟩
    · constructor
      · intro row inserted
        rw [sameTrace] at inserted
        rw [drifts.store]
        exact before.issued row inserted
      · intro row row' inserted inserted'
        rw [sameTrace] at inserted inserted'
        exact before.unique row row' inserted inserted'
    · exact before.resume resumes

/-! ## What never changes of a row -/

/-- In this column the row is as it was inserted. -/
def Originates {α : Type} (trace : List (Entry signature)) (column : model.Row → α)
    (row : model.Row) : Prop :=
  ∃ origin, InsertedAs trace model origin ∧ column origin = column row

theorem Originates.mono {α : Type} {trace trace' : List (Entry signature)}
    {column : model.Row → α} {row : model.Row} (originates : Originates trace column row)
    (grows : trace ⊆ trace') : Originates trace' column row := by
  obtain ⟨origin, inserted, same⟩ := originates
  exact ⟨origin, inserted.mono grows, same⟩

theorem Resumes.originates {α : Type} {column : model.Row → α}
    (fixed : ∀ patch row, column (model.apply patch row) = column row) {thread : Nat}
    {choice : Choice} {request : Request} {performed : Performed signature}
    (resumes : Resumes allows config config' thread choice request performed)
    (before : ∀ id row, config.state.store.find? model id = some row →
      Originates config.trace column row) {id : String} {row : model.Row}
    (found : config'.state.store.find? model id = some row) :
    Originates config'.trace column row := by
  have grows := step_trace resumes.step
  cases resumes.performs.rows model with
  | kept same => exact (before id row ((same id).symm.trans found)).mono grows
  | created new drawn createdAt isCreate _ change =>
      rw [change.lookup] at found
      split at found
      · obtain rfl := Option.some.inj found
        refine ⟨_, ⟨thread, new, ?_⟩, rfl⟩
        rw [resumes.trace, isCreate]
        exact List.mem_cons_self
      · exact (before id row found).mono grows
  | updated key patch old _ change =>
      rw [change.lookup] at found
      split at found
      · obtain rfl := Option.some.inj found
        obtain ⟨origin, inserted, same⟩ := before key old change.found
        exact ⟨origin, inserted.mono grows, same.trans (fixed patch old).symm⟩
      · exact (before id row found).mono grows
  | deleted key old _ change =>
      rw [change.lookup] at found
      split at found
      · cases found
      · exact (before id row found).mono grows
  | cascaded key old isDelivery _ change =>
      subst isDelivery
      rw [change.deliveries rfl] at found
      exact (before id row (Option.filter_eq_some_iff.mp found).1).mono grows

theorem originates_of_run {α : Type} {column : model.Row → α}
    (fixed : ∀ patch row, column (model.apply patch row) = column row)
    (start : state.store = .empty) (run : Run allows (Config.initial state) config) {id : String}
    {row : model.Row} (found : config.state.store.find? model id = some row) :
    Originates config.trace column row := by
  revert id row
  refine run.keeps (I := fun config : Config (service deployment) => ∀ {id : String}
    {row : model.Row}, config.state.store.find? model id = some row →
      Originates config.trace column row) ?_ ?_
  · intro id row found
    rw [find?_initial start] at found
    cases found
  · intro config config' reached before step id row found
    rcases step_cases step with ⟨sameTrace, drifts⟩ | ⟨_, _, _, _, resumes⟩
    · rw [drifts.store] at found
      rw [sameTrace]
      exact before found
    · exact resumes.originates fixed (fun _ _ => before) found

/-! ## Every POST of a delivery says the same -/

/-- What the updates of a delivery leave alone. -/
structure DeliveredEvent where
  id : String
  endpointId : String
  eventType : WebhookEventType
  eventId : String
  payload : WebhookBody

def WebhookDelivery.event (row : WebhookDelivery) : DeliveredEvent :=
  ⟨row.id, row.endpointId, row.eventType, row.eventId, row.payload⟩

/-- A delivery that a thread works on goes back to an insertion. -/
theorem originates_of_loaded (start : state.store = .empty)
    (run : Run allows (Config.initial state) config) {thread : Nat} {row : WebhookDelivery}
    (isLoaded : loaded (config.past thread) = some row) :
    @Originates .webhookDelivery _ config.trace WebhookDelivery.event row := by
  obtain ⟨performed, member, loads⟩ := List.exists_of_findSome?_eq_some isLoaded
  obtain ⟨before, after, choice, request, reached, resumes, later, -⟩ :=
    exists_resumes_of_mem run (mem_pastOf.mp member)
  have grows := List.Subset.trans (step_trace resumes.step) (trace_subset later)
  obtain ⟨call, result⟩ := performed
  cases result with
  | error err => cases loads
  | ok answer =>
      simp only [CosmosPay.loads, Call.loads] at loads
      split at loads
      · obtain ⟨-, order, answered⟩ := resumes.performs.of_query
        have found := Option.some.inj answered
        rw [loads] at found
        obtain ⟨lookup, -⟩ := Option.filter_eq_some_iff.mp found
        exact (originates_of_run (fun _ _ => rfl) start reached lookup).mono grows
      · rename_i new created
        obtain rfl := Option.some.inj loads
        exact ⟨created, ⟨thread, new, mem_pastOf.mp member⟩, rfl⟩
      · cases loads

/-- The POST carries this delivery, as it was inserted. -/
structure Conveys (deployment : Deployment) (origin : WebhookDelivery) (post : WebhookPost) :
    Prop where
  delivery : post.delivery = some origin.id
  event : post.event = origin.eventType.name
  eventId : post.eventId = some origin.eventId
  body : post.body = deployment.libraries.stringify origin.payload

theorem conveys_of_event {endpoint : WebhookEndpoint} {row origin : WebhookDelivery}
    {timestamp : Nat} (same : origin.event = row.event) :
    Conveys deployment origin (WebhookDispatcher.deliveryPost deployment endpoint row
      (deployment.libraries.stringify row.payload) timestamp) where
  delivery := congrArg (some ∘ DeliveredEvent.id) same.symm
  event := congrArg (WebhookEventType.name ∘ DeliveredEvent.eventType) same.symm
  eventId := congrArg (some ∘ DeliveredEvent.eventId) same.symm
  body := congrArg (deployment.libraries.stringify ∘ DeliveredEvent.payload) same.symm

/-- A POST of a delivery, the loop that has made it and the insertion of its row. -/
structure Dispatched (config : Config (service deployment)) (request : Request)
    (past : History signature) (post : WebhookPost) (endpoint : WebhookEndpoint)
    (row origin : WebhookDelivery) (timestamp : Nat) : Prop where
  receiver : CosmosPay.receiver request past = some endpoint
  loaded : CosmosPay.loaded past = some row
  isPost : post = WebhookDispatcher.deliveryPost deployment endpoint row
    (deployment.libraries.stringify row.payload) timestamp
  inserted : InsertedAs config.trace .webhookDelivery origin
  event : origin.event = row.event

theorem dispatched_of_post (start : state.store = .empty)
    (run : Run allows (Config.initial state) config) {thread : Nat} {request : Request}
    {post : WebhookPost} {resume : signature.Result (.post post) → Promise Reply}
    (paused : config.threads[thread]? = some ⟨request, .await (.post post) resume⟩)
    (isDelivery : post.delivery ≠ none) : ∃ endpoint row origin timestamp,
      Dispatched config request (config.past thread) post endpoint row origin timestamp := by
  have permitted : permitsDelivery deployment request (config.past thread) (.post post) :=
    run.permitted deliveries_fulfilled paused
  rcases permitted.2 with isPing | sends
  · exact absurd isPing isDelivery
  · obtain ⟨endpoint, row, timestamp, isReceiver, isLoaded, isPost⟩ := sends.signed
    obtain ⟨origin, inserted, same⟩ := originates_of_loaded start run isLoaded
    exact ⟨endpoint, row, origin, timestamp, isReceiver, isLoaded, isPost, inserted, same⟩

theorem Dispatched.conveys {request : Request} {past : History signature} {post : WebhookPost}
    {endpoint : WebhookEndpoint} {row origin : WebhookDelivery} {timestamp : Nat}
    (dispatched : Dispatched config request past post endpoint row origin timestamp) :
    Conveys deployment origin post := by
  rw [dispatched.isPost]
  exact conveys_of_event dispatched.event

theorem origin_of_post (start : state.store = .empty)
    (run : Run allows (Config.initial state) config) {thread : Nat} {post : WebhookPost}
    {answer : Except ServiceError Nat} (made : ⟨thread, .post post, answer⟩ ∈ config.trace)
    (isDelivery : post.delivery ≠ none) :
    ∃ origin, InsertedAs config.trace .webhookDelivery origin ∧ Conveys deployment origin post := by
  obtain ⟨before, after, choice, request, reached, resumes, later, -⟩ :=
    exists_resumes_of_mem run made
  obtain ⟨resume, paused, -⟩ := resumes.paused
  obtain ⟨_, _, origin, _, dispatched⟩ := dispatched_of_post start reached paused isDelivery
  have grows := List.Subset.trans (step_trace resumes.step) (trace_subset later)
  exact ⟨origin, dispatched.inserted.mono grows, dispatched.conveys⟩

/-- All POSTs of one delivery, by its task and by redeliveries, whatever happens to the
endpoint and the row in between, name the same event and carry the same body. -/
theorem posts_repeat (start : state.store = .empty)
    (run : Run allows (Config.initial state) config) {thread thread' : Nat}
    {post post' : WebhookPost} {answer answer' : Except ServiceError Nat}
    (made : ⟨thread, .post post, answer⟩ ∈ config.trace)
    (made' : ⟨thread', .post post', answer'⟩ ∈ config.trace)
    (isDelivery : post.delivery ≠ none) (same : post.delivery = post'.delivery) :
    post.event = post'.event ∧ post.eventId = post'.eventId ∧ post.body = post'.body := by
  obtain ⟨origin, inserted, conveys⟩ := origin_of_post start run made isDelivery
  obtain ⟨origin', inserted', conveys'⟩ := origin_of_post start run made' (same ▸ isDelivery)
  have sameId : origin.id = origin'.id :=
    Option.some.inj (conveys.delivery.symm.trans (same.trans conveys'.delivery))
  obtain rfl := (drawnOnce_of_run run).unique origin origin' inserted inserted' sameId
  exact ⟨conveys.event.trans conveys'.event.symm, conveys.eventId.trans conveys'.eventId.symm,
    conveys.body.trans conveys'.body.symm⟩

end Origins

/-! ## A loop and a redelivery -/

/-- Two POSTs of the task of a delivery, and then one POST of a redelivery. -/
def redelivered : Config (service Sample.deployment) :=
  after (fun _ label => issues Request.isForeground label)
    (Sample.delivery ++ Sample.post 3 500 ++ Sample.serve 3 1 ++ Sample.post 3 200 ++
      Sample.serve 3 2 ++ Sample.redeliver 4 "alice" "ep" "d" ++ Sample.post 4 200 ++
      Sample.serve 4 2)
    Sample.start

theorem exists_post_of_any {trace : List (Entry signature)} {thread : Nat} {id : String}
    (among : trace.any (fun entry =>
      decide (entry.thread = thread) && isPostOf id entry.performed) = true) :
    ∃ post answer, ⟨thread, .post post, answer⟩ ∈ trace ∧ post.delivery = some id := by
  obtain ⟨⟨owner, call, answer⟩, member, holds⟩ := List.any_eq_true.mp among
  obtain ⟨isThread, isPost⟩ := Bool.and_eq_true_iff.mp holds
  obtain rfl : owner = thread := of_decide_eq_true isThread
  cases call with
  | post post => exact ⟨post, answer, member, of_decide_eq_true isPost⟩
  | _ => cases isPost

theorem posts_repeat_of_redelivered : ∃ post post' : WebhookPost,
    post.delivery = some "d" ∧ post'.delivery = some "d" ∧
      post.event = post'.event ∧ post.eventId = post'.eventId ∧ post.body = post'.body := by
  obtain ⟨post, answer, made, isDelivery⟩ : ∃ post answer,
      ⟨3, .post post, answer⟩ ∈ redelivered.trace ∧ post.delivery = some "d" :=
    exists_post_of_any (by decide +kernel)
  obtain ⟨post', answer', made', isDelivery'⟩ : ∃ post answer,
      ⟨4, .post post, answer⟩ ∈ redelivered.trace ∧ post.delivery = some "d" :=
    exists_post_of_any (by decide +kernel)
  have run : Run (fun _ label => issues Request.isForeground label = true) Sample.start
    redelivered := run_after (fun _ _ checked => checked) _ _
  refine ⟨post, post', isDelivery, isDelivery', ?_⟩
  exact posts_repeat rfl run made made' (isDelivery ▸ nofun) (isDelivery.trans isDelivery'.symm)

end CosmosPay
