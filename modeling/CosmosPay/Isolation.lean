import CosmosPay.Tenants

/-!
# Tenant isolation

Whatever is in flight, a request works for its caller: its steps leave the rows of every
other consumer as they are, and what it sends and returns are rows that were stored as the
caller's while it was in flight.  Where it names a row that is not the caller's, it is
refused and has changed nothing.
-/

namespace CosmosPay

open Awaiting Tables

/-- Lookups find nothing wrong but a lost connection. -/
theorem Performs.error_of_looksUp {before after : World} {performed : Performed signature}
    {err : ServiceError} (performs : Performs before after performed)
    (looksUp : performed.call.LooksUp) (failed : performed.answer = .error err) :
    err = disconnected := by
  obtain ⟨call, answer⟩ := performed
  obtain ⟨choice, served, made, isAnswer, -⟩ := performs
  have isError : served.answer = .error err := isAnswer.trans failed
  cases call with
  | query asked =>
      rcases (World.perform_query made).2 with rejected | ⟨given, -, isGiven⟩
      · exact Except.error.inj (isError.symm.trans rejected)
      · cases isError.symm.trans isGiven
  | write statement =>
      cases statement with
      | upsertConsumer username credentialId =>
          rcases World.perform_write made with rfl | ⟨id, fresh, rfl⟩
          · exact (Except.error.inj isError).symm
          · obtain ⟨result, executed⟩ := Store.upsertConsumer_isOk username credentialId (fresh rfl)
            rw [Write.execute, executed] at isError
            cases isError
      | _ => exact looksUp.elim
  | _ => exact looksUp.elim

/-- Lookups change no rows. -/
theorem Performs.tables_of_looksUp {before after : World} {performed : Performed signature}
    (performs : Performs before after performed) (looksUp : performed.call.LooksUp) :
    after.store.tables = before.store.tables := by
  by_cases effect : ∃ statement value, performed = ⟨.write statement, .ok value⟩
  · obtain ⟨statement, value, rfl⟩ := effect
    cases statement with
    | upsertConsumer username credentialId => exact performs.of_upsert.tables
    | _ => exact looksUp.elim
  · push Not at effect
    rw [performs.store_eq effect]

section Runs

variable {deployment : Deployment}
variable {allows : Config (service deployment) → Label (service deployment) → Prop}
variable {config config' : Config (service deployment)} {state : World}

/-- Every request has been shown only what is its caller's. -/
theorem Run.truthful (run : Run allows (Config.initial state) config) {index : Nat}
    {thread : Thread (service deployment)} {username : String}
    (lookup : config.threads[index]? = some thread)
    (isCaller : Request.caller? thread.request = some username) :
    Truthful username (config.past index) config.state := by
  revert index thread
  refine run.keeps (I := fun config : Config (service deployment) =>
    ∀ {index : Nat} {thread : Thread (service deployment)},
      config.threads[index]? = some thread → Request.caller? thread.request = some username →
        Truthful username (config.past index) config.state) ?_ ?_
  · intro index thread lookup
    simp [Config.initial] at lookup
  · intro config config' before ih step index thread lookup isCaller
    cases step with
    | issue request _ =>
        rcases Config.threads_issue lookup with old | ⟨later, -⟩
        · exact ih old isCaller
        · rw [Config.past_issue, before.accounted.past_of_le later]
          exact truthful_nil username _
    | resume resumed choice allowed paused performed =>
        have resumes := Resumes.of_resume allowed paused performed
        rcases resumes.others lookup with rfl | old | ⟨task, isTask⟩
        · obtain ⟨resume, isPaused, still⟩ := resumes.paused
          obtain rfl := Option.some.inj (still.symm.trans lookup)
          rw [resumes.past_self]
          have permitted := before.permitted tenancy_fulfilled isPaused username isCaller
          exact (ih isPaused isCaller).performs permitted resumes.performs
        · by_cases same : resumed = index
          · subst same
            obtain rfl := Option.some.inj (old.symm.trans paused)
            rw [resumes.past_self]
            have permitted := before.permitted tenancy_fulfilled paused username isCaller
            exact (ih paused isCaller).performs permitted resumes.performs
          · rw [resumes.past_of_ne same]
            exact (truthful_stable username _).performs resumes.performs (ih old isCaller)
        · rw [isTask] at isCaller
          cases isCaller
    | move move _ moved =>
        exact (truthful_stable username _).drifts (.of_move moved) (ih lookup isCaller)

/-- While the thread was there, the row was stored as the user's. -/
def SeenBy (allows : Config (service deployment) → Label (service deployment) → Prop)
    (state : World) (config : Config (service deployment)) (index : Nat) (username : String) :
    RowProperty := fun model row =>
  ∃ moment, Run allows (.initial state) moment ∧ Run allows moment config ∧
    index < moment.threads.length ∧ moment.state.store.Holds username model row

theorem referential_of_run (start : state.store = .empty)
    (run : Run allows (Config.initial state) config) : config.state.store.Referential := by
  refine referential_stable.run run ?_
  intro id delivery found
  rw [find?_initial start] at found
  cases found

theorem Store.Lists.holds {store : Store} {username : String} {model : Model} {row : model.Row}
    (lists : store.Lists username model row) (referential : store.Referential) :
    store.Holds username model row :=
  ⟨lists.1, ofTenant_of_reserved referential lists.1 lists.2⟩

variable {index : Nat} {request : Request} {code : Promise Reply} {username : String}

/-- A call of a request, and the step in which it was performed. -/
theorem exists_resumes_of_past (run : Run allows (Config.initial state) config)
    (lookup : config.threads[index]? = some ⟨request, code⟩) {performed : Performed signature}
    (member : performed ∈ config.past index) :
    ∃ before after choice, Run allows (Config.initial state) before ∧
      Resumes allows before after index choice request performed ∧ Run allows after config := by
  obtain ⟨before, after, choice, other, reached, resumes, later, code', lookup'⟩ :=
    exists_resumes_of_mem run (mem_pastOf.mp member)
  obtain ⟨rfl, -⟩ := Thread.mk.inj (Option.some.inj (lookup'.symm.trans lookup))
  exact ⟨before, after, choice, reached, resumes, later⟩

/-- What a request has been shown was its caller's. -/
theorem seenBy_of_shows (start : state.store = .empty)
    (run : Run allows (Config.initial state) config)
    (lookup : config.threads[index]? = some ⟨request, code⟩)
    (isCaller : request.caller? = some username) {model : Model} {row : model.Row}
    (shows : Shows (config.past index) model row) :
    SeenBy allows state config index username model row := by
  obtain ⟨⟨call, result⟩, member, answer, isAnswer, listed⟩ := shows
  obtain ⟨before, after, choice, reached, resumes, later⟩ :=
    exists_resumes_of_past run lookup member
  obtain ⟨resume, paused, still⟩ := resumes.paused
  have permitted := reached.permitted tenancy_fulfilled paused username isCaller
  have truthful := Run.truthful reached paused isCaller
  cases result with
  | error err => cases isAnswer
  | ok value =>
      obtain rfl : value = answer := Except.ok.inj isAnswer
      rcases lists_of_performs truthful permitted resumes.performs listed with lists | lists
      · exact ⟨before, reached, .head resumes.step later,
          (List.getElem?_eq_some_iff.mp paused).1,
          lists.holds (referential_of_run start reached)⟩
      · have reached' := reached.tail resumes.step
        exact ⟨after, reached', later, (List.getElem?_eq_some_iff.mp still).1,
          lists.holds (referential_of_run start reached')⟩

/-- A row that a request has found to be its caller's was the caller's. -/
theorem seenBy_of_owns (start : state.store = .empty)
    (run : Run allows (Config.initial state) config)
    (lookup : config.threads[index]? = some ⟨request, code⟩)
    (isCaller : request.caller? = some username) {model : Model} {id : String}
    (owns : Owns (config.past index) model id) :
    ∃ row, model.indexes.key row = id ∧ SeenBy allows state config index username model row := by
  cases owns with
  | shown _ row _ shows isKey =>
      exact ⟨row, isKey, seenBy_of_shows start run lookup isCaller shows⟩
  | identified _ name member =>
      obtain ⟨before, after, choice, reached, resumes, later⟩ :=
        exists_resumes_of_past run lookup member
      obtain ⟨resume, paused, -⟩ := resumes.paused
      have permitted := reached.permitted tenancy_fulfilled paused username isCaller
      obtain rfl : name = username := permitted
      obtain ⟨-, order, answered⟩ := resumes.performs.of_query
      obtain ⟨row, filtered, isId⟩ := Option.map_eq_some_iff.mp (Option.some.inj answered)
      obtain ⟨found, owned⟩ := Option.filter_eq_some_iff.mp filtered
      have isKey : Model.paymentIntent.indexes.key row = id := Table.key_of_find? found
      refine ⟨row, isKey, before, reached, .head resumes.step later,
        (List.getElem?_eq_some_iff.mp paused).1, ?_, owned⟩
      rw [isKey]
      exact found

/-- Not found, or a lost connection, and no step of the request has changed a row. -/
structure TurnedAway (allows : Config (service deployment) → Label (service deployment) → Prop)
    (state : World) (config : Config (service deployment)) (index : Nat) (request : Request)
    (outcome : Except ServiceError Reply) : Prop where
  error : (∃ message, outcome = .error (.notFound message)) ∨ outcome = .error disconnected
  unchanged : ∀ before after choice performed, Run allows (.initial state) before →
    Resumes allows before after index choice request performed → Run allows after config →
      after.state.store.tables = before.state.store.tables

theorem turnedAway_of_refused (run : Run allows (Config.initial state) config)
    (lookup : config.threads[index]? = some ⟨request, code⟩)
    {outcome : Except ServiceError Reply} (refused : Refused (config.past index) outcome) :
    TurnedAway allows state config index request outcome where
  error := by
    obtain ⟨err, rfl, ⟨message, rfl⟩ | ⟨performed, member, failed⟩⟩ := refused.error
    · exact .inl ⟨message, rfl⟩
    · obtain ⟨before, after, choice, -, resumes, -⟩ := exists_resumes_of_past run lookup member
      have lost := resumes.performs.error_of_looksUp (refused.lookedUp _ member) failed
      exact .inr (by rw [lost])
  unchanged before after choice performed _ resumes later := by
    have member : performed ∈ config.past index := by
      refine past_subset later index ?_
      rw [resumes.past_self]
      exact List.mem_cons_self
    exact resumes.performs.tables_of_looksUp (refused.lookedUp _ member)

theorem Posts.mono {known known' : RowProperty} {request : WebhookPost}
    (posts : Posts deployment known request)
    (weaker : ∀ model row, known model row → known' model row) :
    Posts deployment known' request := by
  cases posts with
  | delivery endpoint delivery timestamp receiver sent =>
      exact .delivery endpoint delivery timestamp (weaker _ _ receiver) (weaker _ _ sent)
  | ping endpoint id createdAt timestamp receiver =>
      exact .ping endpoint id createdAt timestamp (weaker _ _ receiver)

theorem Call.Sends.mono {known known' : RowProperty} {call : Call}
    (sends : call.Sends deployment username known)
    (weaker : ∀ model row, known model row → known' model row) :
    call.Sends deployment username known' := by
  cases call with
  | emit payload => exact ⟨sends.1, weaker _ _ sends.2⟩
  | start task =>
      obtain ⟨intent, payer, isTask, isKnown⟩ := sends
      exact ⟨intent, payer, isTask, weaker _ _ isKnown⟩
  | post request => exact Posts.mono sends weaker
  | _ => trivial

theorem Reply.Tells.mono {known known' : RowProperty} {reply : Reply} (tells : reply.Tells known)
    (weaker : ∀ model row, known model row → known' model row) : reply.Tells known' := by
  cases reply with
  | validation outcome => exact fun view isView => weaker _ _ (tells view isView)
  | intents page => exact fun intent member => weaker _ _ (tells intent member)
  | deliveries page => exact fun delivery member => weaker _ _ (tells delivery member)
  | safeEndpoint shown =>
      obtain ⟨row, isKnown, stripped⟩ := tells
      exact ⟨row, weaker _ _ isKnown, stripped⟩
  | safeEndpoints shown =>
      intro endpoint member
      obtain ⟨row, isKnown, stripped⟩ := tells endpoint member
      exact ⟨row, weaker _ _ isKnown, stripped⟩
  | customers page =>
      obtain ⟨numbers, customers, intents, listed, known, isPage⟩ := tells
      exact ⟨numbers, customers, intents, fun customer member => weaker _ _ (listed _ member),
        fun intent member => weaker _ _ (known intent member), isPage⟩
  | summary summary =>
      obtain ⟨numbers, now, intents, known, figures⟩ := tells
      exact ⟨numbers, now, intents, fun intent member => weaker _ _ (known intent member),
        figures⟩
  | balances page =>
      obtain ⟨numbers, intents, known, isPage⟩ := tells
      exact ⟨numbers, intents, fun intent member => weaker _ _ (known intent member), isPage⟩
  | webhookLogs page =>
      intro log member
      obtain ⟨endpoints, delivery, known, isKnown, shown⟩ := tells log member
      exact ⟨endpoints, delivery, fun endpoint listed => weaker _ _ (known endpoint listed),
        weaker _ _ isKnown, shown⟩
  | ping result => trivial
  | deleted id => trivial
  | done => trivial
  | _ => exact weaker _ _ tells

theorem permitsTenant_sends {past : History signature} {call : Call}
    (permitted : permitsTenant deployment username past call) :
    call.Sends deployment username (Shows past) := by
  cases call <;> first | exact permitted | trivial

/-- Each step of a request leaves the rows of other consumers as they are, and hands on only
rows that were the caller's.  So are the rows that the request returns and those that it
names, unless it is turned away. -/
theorem tenants_isolated (start : state.store = .empty)
    (run : Run allows (Config.initial state) config)
    (lookup : config.threads[index]? = some ⟨request, code⟩)
    (isCaller : request.caller? = some username) :
    (∀ config' choice performed, Resumes allows config config' index choice request performed →
      (∀ other, other ≠ username → config.state.store.SameFor other config'.state.store) ∧
        performed.call.Sends deployment username
          (SeenBy allows state config index username)) ∧
      ∀ outcome, code = .done outcome →
        (∀ reply, outcome = .ok reply →
          reply.Tells (SeenBy allows state config index username)) ∧
        ∀ target ∈ request.targets,
          (∃ row, target.1.indexes.key row = target.2 ∧
            SeenBy allows state config index username target.1 row) ∨
          TurnedAway allows state config index request outcome := by
  have seen : ∀ (model : Model) (row : model.Row), Shows (config.past index) model row →
      SeenBy allows state config index username model row :=
    fun _ _ shows => seenBy_of_shows start run lookup isCaller shows
  constructor
  · intro config' choice performed resumes
    obtain ⟨resume, paused, -⟩ := resumes.paused
    have permitted := run.permitted tenancy_fulfilled paused username isCaller
    have truthful := Run.truthful run paused isCaller
    exact ⟨fun other differ => sameFor_of_performs truthful permitted resumes.performs differ,
      (permitsTenant_sends permitted).mono seen⟩
  · rintro outcome rfl
    obtain ⟨tells, targets⟩ := run.ensured tenancy_fulfilled lookup username isCaller
    refine ⟨fun reply isReply => (tells reply isReply).mono seen, fun target member => ?_⟩
    rcases targets target member with owns | refused
    · exact .inl (seenBy_of_owns start run lookup isCaller owns)
    · exact .inr (turnedAway_of_refused run lookup refused)

/-- A consumer reads its own intent. -/
def ownIntent : Config (service Sample.deployment) :=
  after (fun _ _ => true)
    (Sample.create 0 "alice" "7" "c" "pi" ++
      [.issue (.paymentIntents (.findOne (Sample.caller "alice") "pi")), .resume 2 .serve])
    Sample.start

/-- The intent that a finished program has returned. -/
def returnedView? : Program signature Reply → Option PaymentIntentView
  | .done (.ok (.intent view)) => some view
  | _ => none

theorem eq_done_of_returnedView? {code : Program signature Reply} {view : PaymentIntentView}
    (returned : returnedView? code = some view) : code = .done (.ok (.intent view)) := by
  unfold returnedView? at returned
  split at returned
  · rw [Option.some.inj returned]
  · cases returned

theorem tenants_isolated_of_ownIntent :
    ∃ request view, ownIntent.threads[2]? = some ⟨request, .done (.ok (.intent view))⟩ ∧
      SeenBy (fun _ _ => True) Sample.world ownIntent 2 "alice" .paymentIntent view.intent := by
  have shown : (ownIntent.threads[2]?).any (fun thread =>
      decide (Request.caller? thread.request = some "alice") &&
        (returnedView? thread.code).isSome) = true := by
    decide +kernel
  obtain ⟨⟨request, code⟩, lookup, shows⟩ := (Option.any_eq_true _ _).mp shown
  obtain ⟨isCaller, isShown⟩ := Bool.and_eq_true_iff.mp shows
  obtain ⟨view, returned⟩ := Option.isSome_iff_exists.mp isShown
  obtain rfl : code = _ := eq_done_of_returnedView? returned
  have run : Run (fun _ _ => True) Sample.start ownIntent :=
    run_after (fun _ _ _ => trivial) _ _
  obtain ⟨-, finished⟩ := tenants_isolated rfl run lookup (of_decide_eq_true isCaller)
  exact ⟨request, view, lookup, (finished _ rfl).1 _ rfl⟩

end Runs

end CosmosPay
