import CosmosPay.Contracts.Addresses
import CosmosPay.Contracts.Announcements
import CosmosPay.Isolation
import CosmosPay.Sequence

/-!
# The event stream and the table of intents

Folding the emitted events gives a table of its own: a `DELETED` event removes an intent,
every other event stores the row it carries.  Where one operation runs after the other, this
table is the one in the database, up to the one announcement that is due.
-/

namespace CosmosPay

open Awaiting Tables PaymentIntents

/-- What a receiver of all events knows. -/
abbrev Mirror : Type :=
  String → Option PaymentIntent

def Mirror.record (mirror : Mirror) (type : WebhookEventType) (data : PaymentIntent) : Mirror :=
  fun id =>
    if data.id = id then
      if type = .paymentIntentDeleted then none else some data
    else mirror id

def Mirror.receive (mirror : Mirror) (performed : Performed signature) : Mirror :=
  match performed.call with
  | .emit payload => mirror.record payload.type payload.data
  | _ => mirror

/-- The events of the trace, folded from the oldest on. -/
def mirror (trace : List (Entry signature)) : Mirror :=
  trace.foldr (fun entry known => known.receive entry.performed) fun _ => none

/-- With the announcement that is due, if there is one. -/
def Mirror.announced (mirror : Mirror) : Option (WebhookEventType × PaymentIntent) → Mirror
  | some (type, data) => mirror.record type data
  | none => mirror

@[simp]
theorem mirror_cons (entry : Entry signature) (trace : List (Entry signature)) :
    mirror (entry :: trace) = (mirror trace).receive entry.performed :=
  rfl

theorem Mirror.receive_of_not_emit {mirror : Mirror} {performed : Performed signature}
    (silent : ∀ payload, performed.call ≠ .emit payload) : mirror.receive performed = mirror := by
  obtain ⟨call, answer⟩ := performed
  cases call with
  | emit payload => exact absurd rfl (silent payload)
  | _ => rfl

theorem patchEvent_ne_deleted (patch : PaymentIntentPatch) :
    patchEvent patch ≠ .paymentIntentDeleted := by
  unfold patchEvent
  cases patch.status with
  | value status => cases status <;> simp [statusEvent]
  | _ => simp

/-- What a call changes of the intents is what has to be announced. -/
theorem Performs.announced {before after : World} {performed : Performed signature}
    (performs : Performs before after performed) (id : String) :
    after.store.find? .paymentIntent id =
      Mirror.announced (before.store.find? .paymentIntent) (announcement performed) id := by
  cases isDue : announcement performed with
  | none =>
      cases performs.rows .paymentIntent with
      | kept same => exact same id
      | created new drawn createdAt isCreate =>
          rw [isCreate] at isDue
          cases isDue
      | updated key patch old isUpdate =>
          rw [isUpdate] at isDue
          cases isDue
      | deleted key old isDelete =>
          rw [isDelete] at isDue
          cases isDue
      | cascaded key old isDelivery => cases isDelivery
  | some event =>
      obtain ⟨call, result⟩ := performed
      cases result with
      | error err => cases isDue
      | ok row =>
          simp only [announcement, Call.announcement] at isDue
          split at isDue
          · obtain rfl := Option.some.inj isDue
            obtain ⟨drawn, -, rfl, change⟩ := performs.of_create
            exact change.lookup id
          · obtain rfl := Option.some.inj isDue
            obtain ⟨old, rfl, change⟩ := performs.of_update
            have isKey := Table.key_of_find? change.found
            rw [change.lookup, ← isKey]
            simp only [Mirror.announced, Mirror.record, patchEvent_ne_deleted, if_false]
            rfl
          · obtain rfl := Option.some.inj isDue
            have change := performs.of_delete
            rw [change.lookup, ← Table.key_of_find? change.found]
            simp only [Mirror.announced, Mirror.record, if_true]
            rfl
          · cases isDue

/-- A row that has to be announced has just been written, or has just been deleted. -/
theorem Performs.stored_of_announcement {before after : World} {performed : Performed signature}
    (performs : Performs before after performed) {type : WebhookEventType} {row : PaymentIntent}
    (isDue : announcement performed = some (type, row)) :
    after.store.find? .paymentIntent row.id = some row ∨
      before.store.find? .paymentIntent row.id = some row := by
  by_cases isDeleted : type = .paymentIntentDeleted
  · obtain ⟨call, result⟩ := performed
    cases result with
    | error err => cases isDue
    | ok answer =>
        simp only [announcement, Call.announcement] at isDue
        split at isDue
        · cases isDue
          cases isDeleted
        · cases isDue
          exact absurd isDeleted (patchEvent_ne_deleted _)
        · cases isDue
          have found := performs.of_delete.found
          have isKey : row.id = _ := Table.key_of_find? found
          exact .inr (by rw [isKey, found])
        · cases isDue
  · refine .inl ?_
    rw [performs.announced, isDue]
    simp [Mirror.announced, Mirror.record, isDeleted]

section Mirror

variable {deployment : Deployment}
variable {allows : Config (service deployment) → Label (service deployment) → Prop}
variable {config config' : Config (service deployment)} {state : World}

/-- Only an operation that is in flight has an announcement due. -/
theorem inFlight_of_due (run : Run allows (Config.initial state) config) {index : Nat}
    {event : WebhookEventType × PaymentIntent} (isDue : due (config.past index) = some event) :
    ∃ thread, InFlight config index thread := by
  obtain ⟨performed, isLatest, announced⟩ := Option.bind_eq_some_iff.mp isDue
  obtain ⟨earlier, split⟩ := List.head?_eq_some_iff.mp isLatest
  have front : config.past index = [] ++ performed :: earlier := split
  obtain ⟨newer, older, isTrace, -, -⟩ := exists_split_of_pastOf front
  obtain ⟨request, code, lookup, permitted⟩ :=
    run.permitted_entry transitions_fulfilled isTrace
  refine ⟨⟨request, code⟩, lookup, ?_, fun finished => ?_⟩
  · -- a detached task sends no statement on an intent
    obtain ⟨call, result⟩ := performed
    have allowed : permitsTransition request (pastOf index older) call := permitted
    cases request with
    | background task =>
        cases result with
        | error err => cases announced
        | ok answer =>
            simp only [announcement, Call.announcement] at announced
            split at announced <;> first | exact allowed.elim | cases announced
    | _ => rfl
  · obtain ⟨outcome, rfl⟩ := finished.outcome
    have settled : due (config.past index) = none := run.ensured announcements_fulfilled lookup
    rw [settled] at isDue
    cases isDue

/-- The database holds what was announced and what is due. -/
def Mirrored (config : Config (service deployment)) : Prop :=
  ∀ thread, (∀ other, other ≠ thread → due (config.past other) = none) → ∀ id,
    config.state.store.find? .paymentIntent id =
      (mirror config.trace).announced (due (config.past thread)) id

/-- At most one announcement is due. -/
theorem due_eq_none_of_ne (run : Run allows (Config.initial state) config)
    (oneAtATime : OneAtATime config) {index other : Nat}
    {event : WebhookEventType × PaymentIntent} (isDue : due (config.past index) = some event)
    (differ : other ≠ index) : due (config.past other) = none := by
  cases otherDue : due (config.past other) with
  | none => rfl
  | some second =>
      obtain ⟨thread, inFlight⟩ := inFlight_of_due run isDue
      obtain ⟨otherThread, otherInFlight⟩ := inFlight_of_due run otherDue
      exact absurd (oneAtATime.single otherInFlight inFlight) differ

theorem Mirrored.resume (run : SequentialRun (.initial state) config)
    (before : Mirrored config) {resumed : Nat} {choice : Choice} {request : Request}
    {performed : Performed signature}
    (resumes : Resumes (fun config label => sequential config label = true) config config'
      resumed choice request performed) :
    Mirrored config' := by
  obtain ⟨resume, paused, -⟩ := resumes.paused
  have permitted : permitsAnnouncement (config.past resumed) performed.call :=
    run.permitted announcements_fulfilled paused
  have run' : SequentialRun (.initial state) config' := run.tail resumes.step
  have dueSelf : due (config'.past resumed) = announcement performed := by
    rw [resumes.past_self]
    rfl
  have dueOther : ∀ other, other ≠ resumed → due (config'.past other) = due (config.past other) :=
    fun other differ => by rw [resumes.past_of_ne (Ne.symm differ)]
  intro thread alone id
  rw [resumes.performs.announced id, resumes.trace, mirror_cons]
  cases isDue : due (config.past resumed) with
  | some event =>
      -- the call is the announcement that was due
      obtain ⟨type, row⟩ := event
      rw [permitsAnnouncement, isDue] at permitted
      obtain ⟨username, isEmit⟩ := permitted
      have quiet : ∀ other, other ≠ resumed → due (config.past other) = none :=
        fun _ => due_eq_none_of_ne run run.oneAtATime isDue
      have silent : announcement performed = none := by
        obtain ⟨call, answer⟩ := performed
        subst isEmit
        cases answer <;> rfl
      have nothing : due (config'.past thread) = none := by
        by_cases same : thread = resumed
        · rw [same, dueSelf, silent]
        · rw [dueOther thread same, quiet thread same]
      have received : (mirror config.trace).receive performed =
          (mirror config.trace).record type row := by
        simp only [Mirror.receive, isEmit]
      have held := before resumed quiet id
      rw [isDue] at held
      rw [silent, nothing, received]
      exact held
  | none =>
      rw [permitsAnnouncement, isDue] at permitted
      rw [Mirror.receive_of_not_emit permitted]
      cases announced : announcement performed with
      | none =>
          -- nothing is written, and nothing becomes due
          rw [announced] at dueSelf
          have same : ∀ other, due (config'.past other) = due (config.past other) := by
            intro other
            by_cases isResumed : other = resumed
            · rw [isResumed, dueSelf, isDue]
            · exact dueOther other isResumed
          rw [same]
          exact before thread (fun other differ => (same other).symm.trans (alone other differ)) id
      | some event =>
          -- the statement that was executed is due
          rw [announced] at dueSelf
          have isResumed : thread = resumed := by
            by_contra differ
            have nothing := alone resumed (Ne.symm differ)
            rw [dueSelf] at nothing
            cases nothing
          have quiet : ∀ other, other ≠ resumed → due (config.past other) = none := by
            intro other differ
            rw [← dueOther other differ]
            exact due_eq_none_of_ne run' run'.oneAtATime dueSelf differ
          have held : config.state.store.find? .paymentIntent = mirror config.trace := by
            funext key
            have known := before resumed quiet key
            rw [isDue] at known
            exact known
          rw [isResumed, dueSelf, held]

theorem SequentialRun.mirrored (run : SequentialRun (.initial state) config)
    (start : state.store = .empty) : Mirrored config := by
  refine run.keeps (I := fun config : Config (service deployment) => Mirrored config) ?_ ?_
  · intro thread _ id
    rw [find?_initial start]
    rfl
  · intro config config' reached mirrored step
    cases step with
    | issue request _ => exact mirrored
    | resume resumed choice allowed paused performed =>
        exact mirrored.resume reached (.of_resume allowed paused performed)
    | move move _ moved =>
        intro thread alone id
        have drifts := Drifts.of_move moved
        rw [drifts.store]
        exact mirrored thread alone id

/-! ## Addressees -/

omit deployment allows config config' state in
/-- A row of a batch is stored, and belongs to the owner that the batch names. -/
theorem belongs_of_arranged {store : Store} {keep : PaymentIntent → Bool}
    {arranged : List PaymentIntent} {order : List String} {take : Nat}
    (answered : arrange? PaymentIntent.id (store.intents.rows.filter keep) order =
      some arranged) {intent : PaymentIntent} {owner : String}
    (member : (intent, owner) ∈ store.withConsumer (arranged.take take)) :
    store.Belongs owner .paymentIntent intent.id := by
  have stored := ((batch_of_arranged take answered).2 _ member).1
  obtain ⟨listed, -, isRow⟩ := List.mem_filterMap.mp member
  obtain ⟨consumer, found, pair⟩ := Option.map_eq_some_iff.mp isRow
  obtain ⟨rfl, rfl⟩ := Prod.mk.inj pair
  have reserved : store.Reserved consumer.apisixUsername .paymentIntent
      (Model.paymentIntent.parent listed) :=
    Store.belongsTo_iff.mpr ⟨consumer, found, rfl⟩
  have lists : store.Lists consumer.apisixUsername .paymentIntent listed :=
    .of_mem stored reserved
  exact lists.belongs

omit deployment allows config config' state in
theorem Performs.batched {before after : World} {performed : Performed signature}
    (performs : Performs before after performed) {past : History signature} {owner id : String}
    (batched : Batched (performed :: past) owner id) :
    Batched past owner id ∨ before.store.Belongs owner .paymentIntent id := by
  cases batched with
  | expired now take rows intent listed member isId =>
      rcases List.mem_cons.mp listed with rfl | older
      · obtain ⟨-, order, answered⟩ := performs.of_query
        obtain ⟨arranged, isArranged, rfl⟩ := Option.map_eq_some_iff.mp answered
        exact .inr (isId ▸ belongs_of_arranged isArranged member)
      · exact .inl (.expired now take rows intent older member isId)
  | pending take rows intent listed member isId =>
      rcases List.mem_cons.mp listed with rfl | older
      · obtain ⟨-, order, answered⟩ := performs.of_query
        obtain ⟨arranged, isArranged, rfl⟩ := Option.map_eq_some_iff.mp answered
        obtain ⟨inOrder, -⟩ := Option.filter_eq_some_iff.mp isArranged
        exact .inr (isId ▸ belongs_of_arranged inOrder member)
      · exact .inl (.pending take rows intent older member isId)

/-- What a thread has been shown in batches belongs to the owners named there, and so does
the row that it has just written. -/
structure Attributed (past : History signature) (world : World) : Prop where
  batched : ∀ owner id, Batched past owner id → world.store.Belongs owner .paymentIntent id
  due : ∀ type row owner, CosmosPay.due past = some (type, row) → Batched past owner row.id →
    world.store.belongsTo row.consumerId owner = true

omit deployment allows config config' state in
theorem attributed_stable (past : History signature) : Stable (Attributed past) where
  performs performs attributed :=
    ⟨fun owner id batched =>
      (belongs_stable owner .paymentIntent id).performs performs
        (attributed.batched owner id batched),
      fun type row owner isDue batched =>
        (belongsTo_stable row.consumerId owner).performs performs
          (attributed.due type row owner isDue batched)⟩
  drifts drifts attributed :=
    ⟨fun owner id batched =>
      (belongs_stable owner .paymentIntent id).drifts drifts
        (attributed.batched owner id batched),
      fun type row owner isDue batched =>
        (belongsTo_stable row.consumerId owner).drifts drifts
          (attributed.due type row owner isDue batched)⟩

omit deployment allows config config' state in
theorem Attributed.performs {past : History signature} {before after : World}
    {performed : Performed signature} (attributed : Attributed past before)
    (performs : Performs before after performed) : Attributed (performed :: past) after := by
  have belongs : ∀ owner id, Batched (performed :: past) owner id →
      before.store.Belongs owner .paymentIntent id := by
    intro owner id batched
    rcases performs.batched batched with older | belongs
    · exact attributed.batched owner id older
    · exact belongs
  refine ⟨fun owner id batched =>
    (belongs_stable owner .paymentIntent id).performs performs (belongs owner id batched),
    fun type row owner isDue batched => ?_⟩
  have owned := belongs owner row.id batched
  rcases performs.stored_of_announcement isDue with stored | stored
  · exact ((belongs_stable owner .paymentIntent row.id).performs performs owned).2 row stored
  · exact performs.keepsConsumers.belongsTo (owned.2 row stored)

theorem Run.attributed (run : Run allows (Config.initial state) config) (index : Nat) :
    Attributed (config.past index) config.state := by
  refine run.keeps (I := fun config : Config (service deployment) =>
    ∀ index, Attributed (config.past index) config.state) ?_ ?_ index
  · intro index
    refine ⟨fun owner id batched => ?_, fun type row owner isDue => ?_⟩
    · cases batched with
      | expired now take rows intent listed => cases listed
      | pending take rows intent listed => cases listed
    · cases isDue
  · intro config config' _ ih step index
    cases step with
    | issue request _ => exact ih index
    | resume resumed choice allowed paused performed =>
        have resumes := Resumes.of_resume allowed paused performed
        by_cases same : resumed = index
        · subst same
          rw [resumes.past_self]
          exact (ih resumed).performs resumes.performs
        · rw [resumes.past_of_ne same]
          exact (attributed_stable _).performs resumes.performs (ih index)
    | move move _ moved => exact (attributed_stable _).drifts (.of_move moved) (ih index)

/-- Every event is addressed to the consumer that owns the row. -/
theorem belongsTo_of_emitted (start : state.store = .empty)
    (run : Run allows (Config.initial state) config) {thread : Nat}
    {payload : WebhookEventPayload} {answer : Except ServiceError Unit}
    (emitted : ⟨thread, .emit payload, answer⟩ ∈ config.trace) :
    config.state.store.belongsTo payload.data.consumerId payload.consumerUsername = true := by
  obtain ⟨before, after, choice, request, reached, resumes, later, code, lookup⟩ :=
    exists_resumes_of_mem run emitted
  refine (belongsTo_stable _ _).run (.head resumes.step later) ?_
  obtain ⟨resume, paused, -⟩ := resumes.paused
  have addressed : permitsAddress request (before.past thread) (.emit payload) :=
    reached.permitted addresses_fulfilled paused
  have tenant := reached.permitted tenancy_fulfilled paused
  have announces : permitsAnnouncement (before.past thread) (.emit payload) :=
    reached.permitted announcements_fulfilled paused
  cases isCaller : request.caller? with
  | some username =>
      obtain ⟨rfl, shows⟩ : payload.consumerUsername = username ∧
          Shows (before.past thread) .paymentIntent payload.data := tenant username isCaller
      obtain ⟨moment, -, passed, -, -, owned⟩ :=
        seenBy_of_shows start reached paused isCaller shows
      exact (belongsTo_stable _ _).run passed owned
  | none =>
      cases request with
      | tick node =>
          obtain ⟨event, isDue⟩ : ∃ event, due (before.past thread) = some event := by
            cases isDue : due (before.past thread) with
            | some event => exact ⟨event, rfl⟩
            | none =>
                rw [permitsAnnouncement, isDue] at announces
                exact absurd rfl (announces payload)
          rw [permitsAnnouncement, isDue] at announces
          obtain ⟨username, isPayload⟩ := announces
          obtain rfl := Call.emit.inj isPayload
          exact (Run.attributed reached thread).due _ _ _ isDue addressed
      | background task => exact addressed.elim
      | _ => cases isCaller

/-! ## Event types -/

/-- The event is the announcement of the statement that the thread has just executed; where
the statement set the status, its type is that of the new status. -/
def Announces (past : History signature) (payload : WebhookEventPayload) : Prop :=
  ∃ performed earlier, past = performed :: earlier ∧
    announcement performed = some (payload.type, payload.data) ∧
    ∀ id patch status, performed.call = .write (.update .paymentIntent id patch) →
      patch.status = .value status → payload.type = statusEvent payload.data.status

theorem announces_of_emitted (run : Run allows (Config.initial state) config) {thread : Nat}
    {payload : WebhookEventPayload} {answer : Except ServiceError Unit}
    {newer older : List (Entry signature)}
    (split : config.trace = newer ++ ⟨thread, .emit payload, answer⟩ :: older) :
    Announces (pastOf thread older) payload := by
  obtain ⟨request, code, -, permitted⟩ := run.permitted_entry announcements_fulfilled split
  have announces : permitsAnnouncement (pastOf thread older) (.emit payload) := permitted
  cases isDue : due (pastOf thread older) with
  | none =>
      rw [permitsAnnouncement, isDue] at announces
      exact absurd rfl (announces payload)
  | some event =>
      obtain ⟨type, data⟩ := event
      rw [permitsAnnouncement, isDue] at announces
      obtain ⟨username, isPayload⟩ := announces
      obtain rfl := Call.emit.inj isPayload
      obtain ⟨performed, isLatest, announced⟩ := Option.bind_eq_some_iff.mp isDue
      obtain ⟨earlier, isPast⟩ := List.head?_eq_some_iff.mp isLatest
      refine ⟨performed, earlier, isPast, announced, ?_⟩
      rintro id patch status isUpdate isStatus
      have member : ⟨thread, performed⟩ ∈ config.trace := by
        rw [split]
        refine List.mem_append_right _ (List.mem_cons_of_mem _ (mem_pastOf.mp ?_))
        rw [isPast]
        exact List.mem_cons_self
      obtain ⟨before, after, choice, made, -, resumes, -⟩ := exists_resumes_of_mem run member
      obtain ⟨call, result⟩ := performed
      subst isUpdate
      cases result with
      | error err => cases announced
      | ok row =>
          obtain ⟨rfl, rfl⟩ := Prod.mk.inj (Option.some.inj announced)
          obtain ⟨old, rfl, -⟩ := resumes.performs.of_update
          simp [patchEvent, isStatus, Model.apply, Field.setRequired, Field.toOption]

/-- The event stream mirrors the table of intents.  In a sequential run from the empty
database the folded events are the table whenever no operation is in flight; every event goes
to the owner of its row, right after the statement that wrote the row, with the type that the
statement calls for; and a call that fails changes nothing in the database. -/
theorem events_mirror_intents (start : state.store = .empty)
    (run : SequentialRun (.initial state) config) :
    ((∀ index thread, ¬ InFlight config index thread) → ∀ id,
      config.state.store.find? .paymentIntent id = mirror config.trace id) ∧
    (∀ newer older thread payload answer,
      config.trace = newer ++ ⟨thread, .emit payload, answer⟩ :: older →
      config.state.store.belongsTo payload.data.consumerId payload.consumerUsername = true ∧
        Announces (pastOf thread older) payload) ∧
    ∀ config' thread choice request call err,
      Resumes (fun config label => sequential config label = true) config config' thread choice
        request ⟨call, .error err⟩ → config'.state.store = config.state.store := by
  refine ⟨fun idle id => ?_, fun newer older thread payload answer split => ?_, ?_⟩
  · have quiet : ∀ thread, due (config.past thread) = none := by
      intro thread
      cases isDue : due (config.past thread) with
      | none => rfl
      | some event =>
          obtain ⟨found, inFlight⟩ := inFlight_of_due run isDue
          exact absurd inFlight (idle thread found)
    have held := run.mirrored start 0 (fun other _ => quiet other) id
    rw [quiet 0] at held
    exact held
  · have member : ⟨thread, .emit payload, answer⟩ ∈ config.trace := by
      rw [split]
      exact List.mem_append_right _ List.mem_cons_self
    exact ⟨belongsTo_of_emitted start run member, announces_of_emitted run split⟩
  · intro config' thread choice request call err resumes
    exact resumes.performs.store_eq fun statement value => by rintro ⟨⟩

/-- An intent is created, and a transaction for it is validated. -/
def announcedIntents : Config (service Sample.deployment) :=
  after (fun config label => sequential config label)
    (Sample.create 0 "alice" "7" "c" "pi" ++
      Sample.validate "alice" "pi" '1' :: Sample.serve 2 7)
    Sample.start

theorem events_mirror_intents_of_announcedIntents :
    announcedIntents.state.store.find? .paymentIntent "pi" = mirror announcedIntents.trace "pi" ∧
      (mirror announcedIntents.trace "pi").map PaymentIntent.status = some .succeeded := by
  have idle : ∀ thread ∈ announcedIntents.threads,
      Request.isForeground thread.request = false ∨ thread.code.Finished := by
    decide +kernel
  have run : SequentialRun Sample.start announcedIntents :=
    run_after (fun _ _ checked => checked) _ _
  refine ⟨(events_mirror_intents rfl run).1 ?_ "pi", by decide +kernel⟩
  rintro index thread ⟨lookup, foreground, unfinished⟩
  rcases idle thread (List.mem_of_getElem? lookup) with background | finished
  · rw [background] at foreground
    cases foreground
  · exact unfinished finished

end Mirror

end CosmosPay
