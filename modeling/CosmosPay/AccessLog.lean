import CosmosPay.Authorization
import CosmosPay.PaymentIntents
import CosmosPay.Tables.Pages
import CosmosPay.Text.Calendar

/-!
# The access log

`LoggingInterceptor` keeps a row of every request that passes the guards, with the status of
the response.  It reads that status when the handler has ended, and `AllExceptionsFilter` sets
the status of an error later.
-/

namespace CosmosPay

open Tables
open Text (toISOString)

structure HttpRequest where
  method : String
  originalUrl : String
  url : String
  ip : Option String
  headers : Headers

/-! ## Exceptions and responses -/

inductive ErrorMessage where
  | one (text : String)
  | list (texts : List String)
  deriving DecidableEq, Repr

/-- What `getResponse` of an `HttpException` gives. -/
inductive HttpResponse where
  | text (text : String)
  | object (message : Option ErrorMessage) (error : Option String)
  deriving DecidableEq, Repr

/-- What a pipe or a handler may throw. -/
inductive Exception where
  | http (status : Nat) (response : HttpResponse) (message : String)
  | error (message : String)
  | other
  deriving DecidableEq, Repr

structure ErrorBody where
  statusCode : Nat
  error : String
  message : ErrorMessage
  path : String
  timestamp : String
  deriving DecidableEq, Repr

inductive Body (β : Type) where
  | result (value : β)
  | error (body : ErrorBody)

/-- The response object of a request; it is sent with its body. -/
structure Response (β : Type) where
  statusCode : Nat
  body : Option (Body β)

/-- The response object that Express makes. -/
def Response.fresh {β : Type} : Response β :=
  ⟨200, none⟩

/-- `response.status(status).json(body)` -/
def Response.send {β : Type} (_ : Response β) (status : Nat) (body : Body β) : Response β :=
  ⟨status, some body⟩

/-- What the constructors of Nest's exceptions say about their status. -/
def ServiceError.description : Nat → Option String
  | 400 => some "Bad Request"
  | 401 => some "Unauthorized"
  | 403 => some "Forbidden"
  | 404 => some "Not Found"
  | 503 => some "Service Unavailable"
  | _ => none

/-- An error of the service as the filter sees it. -/
def ServiceError.exception : ServiceError → Exception
  | .http status message =>
      .http status (.object (some (.one message)) (ServiceError.description status)) message
  | err => .error err.message

/-- What `ValidationPipe` throws for a body that breaks these rules. -/
def ValidationPipe.exception (errors : List String) : Exception :=
  .http 400 (.object (some (.list errors)) (some "Bad Request")) "Bad Request Exception"

namespace AllExceptionsFilter

variable {β : Type}

def bodyOf (request : HttpRequest) (now : Nat) : Exception → ErrorBody
  | .http status (.text text) _ =>
      ⟨status, "Internal Server Error", .one text, request.url, toISOString now⟩
  | .http status (.object message error) text =>
      ⟨status, error.getD "Internal Server Error", message.getD (.one text), request.url,
        toISOString now⟩
  | .error _ | .other =>
      ⟨500, "Internal Server Error", .one "Internal server error", request.url, toISOString now⟩

def catchException (request : HttpRequest) (now : Nat) (exception : Exception)
    (response : Response β) : Response β :=
  let body := bodyOf request now exception
  response.send body.statusCode (.error body)

end AllExceptionsFilter

/-! ## The interceptor -/

/-- What the interceptor gives for a row. -/
structure RequestLogData where
  consumer : Option String
  method : String
  path : String
  statusCode : Nat
  durationMs : Nat
  ip : Option String
  userAgent : Option String
  deriving DecidableEq, Repr

/-- A row; the database gives it its id and its time. -/
structure RequestLog extends RequestLogData where
  id : String
  createdAt : Nat
  deriving DecidableEq, Repr

namespace LoggingInterceptor

variable {β : Type}

/-- `url.split('?')[0]` -/
def pathOf (url : String) : String :=
  String.ofList (url.toList.takeWhile (· ≠ '?'))

def startsWith (path front : String) : Bool :=
  front.toList.isPrefixOf path.toList

/-- `request.originalUrl || request.url` -/
def urlOf (request : HttpRequest) : String :=
  if request.originalUrl = "" then request.url else request.originalUrl

/-- Health probes, the documentation, and the traffic of the dashboard. -/
def isExcluded (request : HttpRequest) (url : String) : Bool :=
  startsWith (pathOf url) "/v1/health" || startsWith (pathOf url) "/docs" ||
    (truthy (request.headers "x-cosmos-internal")).isSome

/-- The row that the database is asked to create. -/
def persist (request : HttpRequest) (url : String) (statusCode durationMs : Nat)
    (consumer : Option String) : Option RequestLogData :=
  if isExcluded request url then none
  else
    some {
      consumer, method := request.method, path := pathOf url, statusCode, durationMs,
      ip := request.ip, userAgent := request.headers "user-agent" }

/-- `Math.round` of the nanoseconds in milliseconds -/
def durationMs (startedAt endedAt : Nat) : Nat :=
  (endedAt - startedAt + 500000) / 1000000

/-- Around the pipe and the handler.  `finalize` runs when their stream has ended, with a value
or an error, and finds the response as it is then. -/
def intercept (request : HttpRequest) (gatewayConsumer : Option GatewayConsumer)
    (startedAt endedAt : Nat) (response : Response β) (handle : Except Exception β) :
    Except Exception β × Option RequestLogData :=
  let consumer := gatewayConsumer.map GatewayConsumer.username
  (handle, persist request (urlOf request) response.statusCode (durationMs startedAt endedAt)
    consumer)

end LoggingInterceptor

/-! ## The order of Nest -/

/-- A request with the rest of its way: the rules that its body breaks, and what the handler
gives once it is reached. -/
structure Arrival (β : Type) where
  route : Route
  request : HttpRequest
  startedAt : Nat
  endedAt : Nat
  errors : List String
  handler : Except Exception β
  filteredAt : Nat

/-- What a request has come to: its response, and the row that its interceptor has asked for. -/
structure Exchange (β : Type) where
  response : Response β
  created : Option RequestLogData

/-- The status that Nest gives to a route without `@HttpCode`. -/
def successStatus (method : String) : Nat :=
  if method = "POST" then 201 else 200

variable {β : Type}

/-- The pipe, and then the handler. -/
def Arrival.rest (arrival : Arrival β) : Except Exception β :=
  if arrival.errors = [] then arrival.handler
  else .error (ValidationPipe.exception arrival.errors)

/-- The middleware and the guards; the status of the route; the interceptor around the pipe and
the handler; the filter. -/
def Arrival.exchange (config : ApisixConfig) (arrival : Arrival β) : Exchange β :=
  let request := arrival.request
  let filter := AllExceptionsFilter.catchException request arrival.filteredAt
  match reachHandler config arrival.route request.headers with
  | .error err => ⟨filter err.exception Response.fresh, none⟩
  | .ok () =>
      let status := successStatus request.method
      let routed : Response β := { Response.fresh with statusCode := status }
      let consumer := ApisixContextMiddleware.use config request.headers
      match LoggingInterceptor.intercept request consumer arrival.startedAt arrival.endedAt routed
          arrival.rest with
      | (.ok value, created) => ⟨routed.send status (.result value), created⟩
      | (.error exception, created) => ⟨filter exception routed, created⟩

/-! ## What is logged and what is answered -/

section Exchanges

variable {config : ApisixConfig} {arrival : Arrival β} {data : RequestLogData}

/-- `getStatus` of an `HttpException`; anything else becomes a 500. -/
def Exception.status : Exception → Nat
  | .http status _ _ => status
  | _ => 500

theorem AllExceptionsFilter.bodyOf_statusCode (request : HttpRequest) (now : Nat)
    (exception : Exception) :
    (AllExceptionsFilter.bodyOf request now exception).statusCode = exception.status := by
  cases exception with
  | http status response message => cases response <;> rfl
  | error message => rfl
  | other => rfl

namespace Arrival

theorem exchange_of_refused {err : ServiceError}
    (refused : reachHandler config arrival.route arrival.request.headers = .error err) :
    arrival.exchange config =
      ⟨AllExceptionsFilter.catchException arrival.request arrival.filteredAt err.exception
        Response.fresh, none⟩ := by
  simp only [exchange, refused]

/-- The row that the interceptor asks for behind the guards, whatever follows. -/
def rowOf (config : ApisixConfig) (arrival : Arrival β) : Option RequestLogData :=
  LoggingInterceptor.persist arrival.request (LoggingInterceptor.urlOf arrival.request)
    (successStatus arrival.request.method)
    (LoggingInterceptor.durationMs arrival.startedAt arrival.endedAt)
    ((ApisixContextMiddleware.use config arrival.request.headers).map GatewayConsumer.username)

theorem exchange_of_result {value : β}
    (passes : reachHandler config arrival.route arrival.request.headers = .ok ())
    (isResult : arrival.rest = .ok value) :
    arrival.exchange config =
      ⟨⟨successStatus arrival.request.method, some (.result value)⟩, arrival.rowOf config⟩ := by
  simp only [exchange, passes, LoggingInterceptor.intercept, isResult]
  rfl

theorem exchange_of_error {exception : Exception}
    (passes : reachHandler config arrival.route arrival.request.headers = .ok ())
    (isError : arrival.rest = .error exception) :
    arrival.exchange config =
      ⟨AllExceptionsFilter.catchException arrival.request arrival.filteredAt exception
        ⟨successStatus arrival.request.method, none⟩, arrival.rowOf config⟩ := by
  simp only [exchange, passes, LoggingInterceptor.intercept, isError]
  rfl

theorem created_eq
    (passes : reachHandler config arrival.route arrival.request.headers = .ok ()) :
    (arrival.exchange config).created = arrival.rowOf config := by
  cases rest : arrival.rest with
  | ok value => rw [exchange_of_result passes rest]
  | error exception => rw [exchange_of_error passes rest]

/-- A row is asked for only for a request that passes the guards and is not excluded, and it
says that the request succeeded. -/
theorem of_created (created : (arrival.exchange config).created = some data) :
    reachHandler config arrival.route arrival.request.headers = .ok () ∧
      data.method = arrival.request.method ∧
        data.statusCode = successStatus arrival.request.method := by
  cases reached : reachHandler config arrival.route arrival.request.headers with
  | error err =>
      rw [exchange_of_refused reached] at created
      cases created
  | ok =>
      rw [created_eq reached, rowOf, LoggingInterceptor.persist] at created
      split at created
      · cases created
      · obtain rfl := Option.some.inj created
        exact ⟨rfl, rfl, rfl⟩

theorem exists_created
    (passes : reachHandler config arrival.route arrival.request.headers = .ok ())
    (included : LoggingInterceptor.isExcluded arrival.request
      (LoggingInterceptor.urlOf arrival.request) = false) :
    ∃ data, (arrival.exchange config).created = some data := by
  rw [created_eq passes, rowOf, LoggingInterceptor.persist, included]
  exact ⟨_, rfl⟩

/-- A result is sent with the status of the route, an error with a status of its own. -/
theorem response_statusCode
    (passes : reachHandler config arrival.route arrival.request.headers = .ok ()) :
    (arrival.exchange config).response.statusCode =
      match arrival.rest with
      | .ok _ => successStatus arrival.request.method
      | .error exception => exception.status := by
  cases rest : arrival.rest with
  | ok value => rw [exchange_of_result passes rest]
  | error exception =>
      rw [exchange_of_error passes rest]
      exact AllExceptionsFilter.bodyOf_statusCode _ _ _

/-- Every request is answered, and an error names the status that it is sent with. -/
theorem exists_body (config : ApisixConfig) (arrival : Arrival β) :
    ∃ body, (arrival.exchange config).response.body = some body ∧
      ∀ error, body = .error error →
        error.statusCode = (arrival.exchange config).response.statusCode := by
  cases reached : reachHandler config arrival.route arrival.request.headers with
  | error err =>
      rw [exchange_of_refused reached]
      refine ⟨_, rfl, ?_⟩
      rintro error ⟨⟩
      rfl
  | ok =>
      cases rest : arrival.rest with
      | ok value =>
          rw [exchange_of_result reached rest]
          refine ⟨_, rfl, ?_⟩
          rintro error ⟨⟩
      | error exception =>
          rw [exchange_of_error reached rest]
          refine ⟨_, rfl, ?_⟩
          rintro error ⟨⟩
          rfl

end Arrival

end Exchanges

/-! ## Requests at once -/

/-- The requests that have been served, the rows that are being created, and the rows of
`RequestLog`, each with the request it is about. -/
structure Server (β : Type) where
  served : List (Arrival β)
  pending : List (Arrival β × RequestLogData)
  persisted : List (Arrival β × RequestLog)

namespace Server

def initial : Server β :=
  ⟨[], [], []⟩

/-- Nothing waits for the creation of a row, and a failure of it is dropped. -/
inductive Step (config : ApisixConfig) : Server β → Server β → Prop where
  | serve (server : Server β) (arrival : Arrival β) :
      Step config server { server with
        served := server.served ++ [arrival]
        pending := server.pending ++
          ((arrival.exchange config).created.map fun data => (arrival, data)).toList }
  | store {server : Server β} {before after : List (Arrival β × RequestLogData)}
      {arrival : Arrival β} {data : RequestLogData} (id : String) (createdAt : Nat)
      (split : server.pending = before ++ (arrival, data) :: after)
      (fresh : ∀ entry ∈ server.persisted, entry.2.id ≠ id) :
      Step config server { server with
        pending := before ++ after
        persisted := server.persisted ++ [(arrival, ⟨data, id, createdAt⟩)] }
  | refuse {server : Server β} {before after : List (Arrival β × RequestLogData)}
      {entry : Arrival β × RequestLogData}
      (split : server.pending = before ++ entry :: after) :
      Step config server { server with pending := before ++ after }

abbrev Run (config : ApisixConfig) : Server β → Server β → Prop :=
  Relation.ReflTransGen (Step config)

/-- Every row is one that the interceptor of a served request has asked for. -/
structure Traced (config : ApisixConfig) (server : Server β) : Prop where
  pending : ∀ entry ∈ server.pending, entry.1 ∈ server.served ∧
    (entry.1.exchange config).created = some entry.2
  persisted : ∀ entry ∈ server.persisted, entry.1 ∈ server.served ∧
    (entry.1.exchange config).created = some entry.2.toRequestLogData
  distinct : (server.persisted.map fun entry => entry.2.id).Nodup

variable {config : ApisixConfig} {server server' : Server β}

theorem mem_of_mem_rest {α : Type} {before after : List α} {item dropped : α}
    (member : item ∈ before ++ after) : item ∈ before ++ dropped :: after :=
  ((List.sublist_cons_self dropped after).append_left before).subset member

theorem traced_initial : Traced config (initial : Server β) :=
  ⟨by simp [initial], by simp [initial], List.nodup_nil⟩

theorem Traced.step (step : Step config server server') (traced : Traced config server) :
    Traced config server' := by
  cases step with
  | serve arrival =>
      have remains : ∀ other ∈ server.served, other ∈ server.served ++ [arrival] :=
        fun other isServed => List.mem_append_left _ isServed
      refine ⟨fun entry isPending => ?_, fun entry isPersisted => ?_, traced.distinct⟩
      · rcases List.mem_append.mp isPending with old | new
        · exact (traced.pending entry old).imp_left (remains _)
        · obtain ⟨data, created, rfl⟩ := Option.map_eq_some_iff.mp (Option.mem_toList.mp new)
          exact ⟨List.mem_append_right _ (List.mem_singleton_self arrival), created⟩
      · exact (traced.persisted entry isPersisted).imp_left (remains _)
  | @store before after arrival data id createdAt split fresh =>
      have wasPending : ∀ entry ∈ before ++ (arrival, data) :: after,
          entry.1 ∈ server.served ∧ (entry.1.exchange config).created = some entry.2 :=
        fun entry isPending => traced.pending entry (split ▸ isPending)
      refine ⟨fun entry isPending => wasPending entry (mem_of_mem_rest isPending),
        fun entry isPersisted => ?_, ?_⟩
      · rcases List.mem_append.mp isPersisted with old | new
        · exact traced.persisted entry old
        · obtain rfl := List.mem_singleton.mp new
          exact wasPending (arrival, data) (List.mem_append_right _ List.mem_cons_self)
      · rw [List.map_append, List.nodup_append]
        refine ⟨traced.distinct, List.nodup_singleton _, fun other isOld new isNew => ?_⟩
        obtain ⟨entry, isEntry, rfl⟩ := List.mem_map.mp isOld
        obtain rfl := List.mem_singleton.mp isNew
        exact fresh entry isEntry
  | @refuse before after dropped split =>
      refine ⟨fun entry isPending => traced.pending entry ?_, traced.persisted, traced.distinct⟩
      rw [split]
      exact mem_of_mem_rest isPending

theorem traced_of_run (run : Run config initial server) : Traced config server := by
  induction run with
  | refl => exact traced_initial
  | tail _ step ih => exact ih.step step

end Server

/-- A row that has been asked for may be stored at once. -/
theorem Server.exists_persisted {config : ApisixConfig} {arrival : Arrival β}
    {data : RequestLogData} (created : (arrival.exchange config).created = some data) (id : String)
    (createdAt : Nat) :
    ∃ server, Run config initial server ∧ (arrival, ⟨data, id, createdAt⟩) ∈ server.persisted := by
  let asked : Server β := ⟨[arrival], [(arrival, data)], []⟩
  have served : Step config initial asked := by
    have step : Step config initial _ := Step.serve initial arrival
    rwa [created] at step
  have stored : Step config asked ⟨[arrival], [], [(arrival, ⟨data, id, createdAt⟩)]⟩ :=
    @Step.store _ config asked [] [] arrival data id createdAt rfl fun _ none => by cases none
  exact ⟨_, .tail (.single served) stored, List.mem_singleton_self _⟩

/-- The rest of the way gives a result, or throws an exception with the status of a result. -/
def Arrival.KeepsStatus (arrival : Arrival β) : Prop :=
  (∃ value, arrival.rest = .ok value) ∨
    ∃ response message,
      arrival.rest = .error (.http (successStatus arrival.request.method) response message)

theorem successStatus_lt (method : String) : successStatus method < 400 := by
  unfold successStatus
  split <;> decide

theorem Arrival.keepsStatus_iff {arrival : Arrival β} :
    arrival.KeepsStatus ↔ successStatus arrival.request.method =
      match arrival.rest with
      | .ok _ => successStatus arrival.request.method
      | .error exception => exception.status := by
  unfold KeepsStatus
  cases arrival.rest with
  | ok value => simp
  | error exception =>
      have differs : successStatus arrival.request.method ≠ 500 := by
        have few := successStatus_lt arrival.request.method
        omega
      cases exception with
      | http status response message => simp [Exception.status, eq_comm]
      | error message => simpa [Exception.status] using differs
      | other => simpa [Exception.status] using differs

/-- Every request that passes the guards and is not excluded has a row created.  The row has
the status of the answer if and only if that is the status of a success. -/
theorem log_records_answer_iff (config : ApisixConfig) :
    (∀ arrival : Arrival β,
      reachHandler config arrival.route arrival.request.headers = .ok () →
      LoggingInterceptor.isExcluded arrival.request
        (LoggingInterceptor.urlOf arrival.request) = false →
      ∃ data, (arrival.exchange config).created = some data) ∧
    ∀ server : Server β, Server.Run config .initial server →
      ∀ arrival row, (arrival, row) ∈ server.persisted →
        (row.statusCode = (arrival.exchange config).response.statusCode ↔
          arrival.KeepsStatus) := by
  refine ⟨fun arrival passes included => arrival.exists_created passes included, ?_⟩
  intro server run arrival row isPersisted
  obtain ⟨-, created⟩ := (Server.traced_of_run run).persisted _ isPersisted
  obtain ⟨passes, -, isSuccess⟩ := Arrival.of_created created
  rw [isSuccess, Arrival.response_statusCode passes, Arrival.keepsStatus_iff]

namespace Sample

def lookupRequest : HttpRequest where
  method := "GET"
  originalUrl := "/v1/payment-intents/pi"
  url := "/v1/payment-intents/pi"
  ip := some "10.0.0.7"
  headers := userHeaders "payments:read"

/-- A request for the intent `pi`. -/
def lookup (handler : Except Exception String) : Arrival String where
  route := readRoute
  request := lookupRequest
  startedAt := 0
  endedAt := 1500000
  errors := []
  handler := handler
  filteredAt := 2

theorem exists_persisted_lookup (handler : Except Exception String) :
    ∃ server row, Server.Run apisix .initial server ∧
      (lookup handler, row) ∈ server.persisted := by
  have passes : reachHandler apisix readRoute lookupRequest.headers = .ok () := by
    decide +kernel
  have included : LoggingInterceptor.isExcluded lookupRequest
      (LoggingInterceptor.urlOf lookupRequest) = false := by
    decide +kernel
  obtain ⟨data, created⟩ := (lookup handler).exists_created passes included
  obtain ⟨server, run, isPersisted⟩ := Server.exists_persisted created "r" 1
  exact ⟨server, _, run, isPersisted⟩

end Sample

theorem log_records_answer_iff_of_lookup :
    ∃ server row, Server.Run Sample.apisix .initial server ∧
      (Sample.lookup (.ok "pi"), row) ∈ server.persisted ∧
        row.statusCode =
          ((Sample.lookup (.ok "pi")).exchange Sample.apisix).response.statusCode := by
  obtain ⟨server, row, run, isPersisted⟩ := Sample.exists_persisted_lookup (.ok "pi")
  obtain ⟨-, records⟩ := log_records_answer_iff Sample.apisix
  exact ⟨server, row, run, isPersisted,
    (records server run _ row isPersisted).mpr (.inl ⟨"pi", rfl⟩)⟩

/-- A request for an intent that is not there is answered 404 and logged 200. -/
theorem not_log_records_answer :
    ¬ ∀ (β : Type) (config : ApisixConfig) (server : Server β),
      Server.Run config .initial server →
      ∀ arrival row, (arrival, row) ∈ server.persisted → arrival.route.isPublic = false →
        row.statusCode = (arrival.exchange config).response.statusCode := by
  intro records
  let arrival := Sample.lookup (.error (PaymentIntents.notFound "pi").exception)
  obtain ⟨server, row, run, isPersisted⟩ : ∃ server row,
      Server.Run Sample.apisix .initial server ∧ (arrival, row) ∈ server.persisted :=
    Sample.exists_persisted_lookup _
  have logged : row.statusCode = 200 := by
    obtain ⟨-, created⟩ := (Server.traced_of_run run).persisted _ isPersisted
    exact (Arrival.of_created created).2.2
  have answered : (arrival.exchange Sample.apisix).response.statusCode = 404 := by
    decide +kernel
  have same := records String Sample.apisix server run arrival row isPersisted rfl
  rw [logged, answered] at same
  cases same

/-! ## The log of the dashboard -/

inductive ApiLogStatus where
  | ok
  | pending
  | fail
  deriving DecidableEq, Repr

structure ApiLog where
  id : String
  method : String
  path : String
  statusCode : Nat
  durationMs : Nat
  ip : Option String
  userAgent : Option String
  status : ApiLogStatus
  loggedAt : Nat
  deriving DecidableEq, Repr

structure ApiLogPage where
  data : List ApiLog
  total : Nat
  deriving DecidableEq

namespace Analytics

def apiLogStatus (statusCode : Nat) : ApiLogStatus :=
  if statusCode < 400 then .ok else if statusCode < 500 then .pending else .fail

def apiLog (row : RequestLog) : ApiLog where
  id := row.id
  method := row.method
  path := row.path
  statusCode := row.statusCode
  durationMs := row.durationMs
  ip := row.ip
  userAgent := row.userAgent
  status := apiLogStatus row.statusCode
  loggedAt := row.createdAt

/-- The page for the rows that the database gives. -/
def apiLogs (rows : List RequestLog) : ApiLogPage :=
  ⟨rows.map apiLog, (rows.map apiLog).length⟩

end Analytics

/-- The rows that the database may give for a log of `take` requests of a consumer. -/
def Server.Lists (server : Server β) (consumer : GatewayConsumer) (take : Nat)
    (rows : List RequestLog) : Prop :=
  PageOf (fun row : RequestLog => -(row.createdAt : Int))
    ((server.persisted.map Prod.snd).filter fun row => row.consumer = some consumer.username)
    take 0 rows

/-- A row names the caller and the path of a request that is not excluded. -/
theorem Arrival.consumer_of_created {config : ApisixConfig} {arrival : Arrival β}
    {data : RequestLogData} (created : (arrival.exchange config).created = some data) :
    data.consumer = (ApisixContextMiddleware.use config arrival.request.headers).map
        GatewayConsumer.username ∧
      data.path = LoggingInterceptor.pathOf (LoggingInterceptor.urlOf arrival.request) ∧
      LoggingInterceptor.isExcluded arrival.request
        (LoggingInterceptor.urlOf arrival.request) = false := by
  rw [created_eq (of_created created).1, rowOf, LoggingInterceptor.persist] at created
  split at created
  · cases created
  · rename_i included
    obtain rfl := Option.some.inj created
    exact ⟨rfl, rfl, by simpa using included⟩

/-- The entry is about this request, and tells of a success. -/
structure ApiLog.About (config : ApisixConfig) (consumer : GatewayConsumer)
    (arrival : Arrival β) (log : ApiLog) : Prop where
  own : ∃ caller, ApisixContextMiddleware.use config arrival.request.headers = some caller ∧
    caller.username = consumer.username
  passed : reachHandler config arrival.route arrival.request.headers = .ok ()
  included : LoggingInterceptor.isExcluded arrival.request
    (LoggingInterceptor.urlOf arrival.request) = false
  method : log.method = arrival.request.method
  path : log.path = LoggingInterceptor.pathOf (LoggingInterceptor.urlOf arrival.request)
  succeeded : log.status = .ok

/-- What the interceptor of a consumer's request has asked for is about that request. -/
theorem Analytics.about_apiLog {config : ApisixConfig} {consumer : GatewayConsumer}
    {arrival : Arrival β} {row : RequestLog}
    (created : (arrival.exchange config).created = some row.toRequestLogData)
    (own : row.consumer = some consumer.username) :
    (Analytics.apiLog row).About config consumer arrival := by
  obtain ⟨passed, isMethod, isSuccess⟩ := Arrival.of_created created
  obtain ⟨isConsumer, isPath, included⟩ := Arrival.consumer_of_created created
  obtain ⟨caller, isCaller, isName⟩ := Option.map_eq_some_iff.mp (isConsumer.symm.trans own)
  refine ⟨⟨caller, isCaller, isName⟩, passed, included, isMethod, isPath, ?_⟩
  have few := successStatus_lt arrival.request.method
  rw [← isSuccess] at few
  exact if_pos few

/-- The dashboard lists the newest requests first and each once.  All of them were made with the
consumer's own key and got past the guards, and all are shown as successful, whatever they were
answered. -/
theorem apiLogs_own {config : ApisixConfig} {server : Server β}
    (run : Server.Run config .initial server) {consumer : GatewayConsumer} {take : Nat}
    {rows : List RequestLog} (listed : server.Lists consumer take rows) :
    (Analytics.apiLogs rows).data.length ≤ take ∧
      ((Analytics.apiLogs rows).data.map ApiLog.id).Nodup ∧
      ((Analytics.apiLogs rows).data.Pairwise fun first second =>
        second.loggedAt ≤ first.loggedAt) ∧
      ∀ log ∈ (Analytics.apiLogs rows).data, ∃ arrival ∈ server.served,
        log.About config consumer arrival := by
  obtain ⟨listing, isListing, rfl⟩ := listed
  have traced := Server.traced_of_run run
  have page : ((listing.drop 0).take take).Sublist listing := by
    rw [List.drop_zero]
    exact List.take_sublist take listing
  have ids : (Analytics.apiLogs ((listing.drop 0).take take)).data.map ApiLog.id =
      ((listing.drop 0).take take).map RequestLog.id := List.map_map
  refine ⟨?_, ?_, ?_, fun log shown => ?_⟩
  · exact (List.length_map _).trans_le (List.length_take_le take _)
  · have stored : ((server.persisted.map Prod.snd).map RequestLog.id).Nodup := by
      rw [List.map_map]
      exact traced.distinct
    have kept := (isListing.perm.map RequestLog.id).nodup_iff.mpr
      (stored.sublist (List.filter_sublist.map RequestLog.id))
    rw [ids]
    exact kept.sublist (page.map RequestLog.id)
  · refine List.pairwise_map.mpr ((isListing.sorted.sublist page).imp ?_)
    exact fun ordered => Int.ofNat_le.mp (Int.neg_le_neg_iff.mp ordered)
  · obtain ⟨row, isRow, rfl⟩ := List.mem_map.mp shown
    obtain ⟨isStored, own⟩ := List.mem_filter.mp (isListing.perm.mem_iff.mp (page.subset isRow))
    obtain ⟨⟨arrival, data⟩, isPersisted, rfl⟩ := List.mem_map.mp isStored
    obtain ⟨isServed, created⟩ := traced.persisted _ isPersisted
    exact ⟨arrival, isServed, Analytics.about_apiLog created (of_decide_eq_true own)⟩

/-- A request that is answered 404 is shown as one that went well. -/
theorem apiLogs_own_of_lookup : ∃ (arrival : Arrival String) (server : Server String)
    (consumer : GatewayConsumer) (take : Nat) (rows : List RequestLog),
    Server.Run Sample.apisix .initial server ∧ server.Lists consumer take rows ∧
      (arrival.exchange Sample.apisix).response.statusCode = 404 ∧
      ∃ row ∈ rows, arrival.exchange Sample.apisix = ⟨(arrival.exchange Sample.apisix).response,
        some row.toRequestLogData⟩ ∧ (Analytics.apiLog row).status = .ok := by
  let arrival := Sample.lookup (.error (PaymentIntents.notFound "pi").exception)
  obtain ⟨server, row, run, isPersisted⟩ : ∃ server row,
      Server.Run Sample.apisix .initial server ∧ (arrival, row) ∈ server.persisted :=
    Sample.exists_persisted_lookup _
  obtain ⟨-, created⟩ := (Server.traced_of_run run).persisted _ isPersisted
  have named : (ApisixContextMiddleware.use Sample.apisix arrival.request.headers).isSome =
      true := by
    decide +kernel
  obtain ⟨consumer, isCaller⟩ := Option.isSome_iff_exists.mp named
  have own : row.consumer = some consumer.username := by
    rw [(Arrival.consumer_of_created created).1, isCaller]
    rfl
  obtain ⟨listing, isListing⟩ := exists_listing (fun row : RequestLog => -(row.createdAt : Int))
    ((server.persisted.map Prod.snd).filter fun row => row.consumer = some consumer.username)
  have listed : server.Lists consumer listing.length listing :=
    ⟨listing, isListing, List.take_length⟩
  have isRow : row ∈ listing := isListing.perm.mem_iff.mpr (List.mem_filter.mpr
    ⟨List.mem_map_of_mem isPersisted, decide_eq_true own⟩)
  obtain ⟨other, -, about⟩ := (apiLogs_own run listed).2.2.2 _ (List.mem_map_of_mem isRow)
  refine ⟨arrival, server, consumer, _, listing, run, listed, by decide +kernel, row, isRow, ?_,
    about.succeeded⟩
  rw [← created]

end CosmosPay
