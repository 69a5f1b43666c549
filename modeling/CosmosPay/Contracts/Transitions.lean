import CosmosPay.Contracts.Verification

/-!
# Who may change an intent

The contract of every statement on an existing intent.  The helpers that finalize
an intent write only what a verdict or an expiry batch supports, and only while the
latest sighting of the intent in their own history is not `SUCCEEDED`.  Nothing in
the contract says that the sighting is still true.
-/

namespace CosmosPay

open Awaiting Program PaymentIntents

/-- The intents that a call returned. -/
def Call.returnedIntents : (call : Call) → call.Answer → List PaymentIntent
  | .query (.intentByMemo _ _), found => found.toList
  | .query (.intentOwned _ _), found => found.toList
  | .query (.expiredIntents _ _), rows => rows.map Prod.fst
  | .query (.pendingIntents _), rows => rows.map Prod.fst
  | .write (.create .paymentIntent _), row => [row]
  | .write (.update .paymentIntent _ _), row => [row]
  | _, _ => []

def returnedIntents (performed : Performed signature) : List PaymentIntent :=
  match performed.answer with
  | .ok answer => performed.call.returnedIntents answer
  | .error _ => []

def HasRead (past : History signature) (intent : PaymentIntent) : Prop :=
  ∃ performed ∈ past, intent ∈ returnedIntents performed

/-- The patches of the `mark*` helpers, with what supports them. -/
inductive Marks (past : History signature) (id : String) : PaymentIntentPatch → Prop where
  | succeeded (intent : PaymentIntent) (hash : String) (payer : Option String)
      (current : Option (Option String)) (isIntent : intent.id = id)
      (read : HasRead past intent) (evidence : Evidence past intent hash payer) :
      Marks past id (succeededPatch hash payer current)
  | failed (intent : PaymentIntent) (record : TransactionRecord) (hash : Option String)
      (isIntent : intent.id = id) (read : HasRead past intent)
      (shown : ShowsTransaction past intent.network record)
      (unsuccessful : record.successful = false) :
      Marks past id (failedPatch hash)
  | expired (now take : Nat) (rows : List (PaymentIntent × String))
      (row : PaymentIntent × String) (clock : ⟨.now, .ok now⟩ ∈ past)
      (listed : ⟨.query (.expiredIntents now take), .ok rows⟩ ∈ past) (member : row ∈ rows)
      (isRow : row.1.id = id) :
      Marks past id expiredPatch

/-- The latest sighting of the intent is not a settled one. -/
def Guarded (past : History signature) (id : String) : Prop :=
  ∃ seen, lastSighting id past = some seen ∧ seen ≠ some .succeeded

/-- Which statements on intents a request may send. -/
def permitsTransition (request : Request) (past : History signature) : Call → Prop
  | .write (.create .paymentIntent _) =>
      match request with
      | .paymentIntents (.createTx _ _) => True
      | .paymentIntents (.createPay _ _) => True
      | _ => False
  | .write (.update .paymentIntent id patch) =>
      match request with
      | .paymentIntents (.update consumer key dto) =>
          id = key ∧ patch = patchOf dto ∧
            ⟨.query (.intentIdOwned key consumer.username), .ok (some key)⟩ ∈ past
      | .paymentIntents (.validate _ key _) => id = key ∧ Guarded past id ∧ Marks past id patch
      | .tick _ => Guarded past id ∧ Marks past id patch
      | _ => False
  | .write (.delete .paymentIntent id) =>
      match request with
      | .paymentIntents (.remove consumer key) =>
          id = key ∧ Guarded past id ∧
            ⟨.query (.intentIdOwned key consumer.username), .ok (some key)⟩ ∈ past
      | _ => False
  | _ => True

/-- Statements on existing intents follow `permitsTransition`; outcomes are left open. -/
def transitions (deployment : Deployment) : Contract (service deployment) where
  relies := Believable
  permits := permitsTransition
  ensures _ _ _ := True

theorem permitsTransition_of_peripheral {request : Request} {past : History signature}
    {call : Call} (peripheral : call.Peripheral ∨ ∃ payload, call = .emit payload) :
    permitsTransition request past call := by
  rcases peripheral with peripheral | ⟨payload, rfl⟩
  · unfold permitsTransition
    split <;> first | exact peripheral.elim | trivial
  · trivial

/-! ## Sightings -/

@[simp]
theorem lastSighting_cons (id : String) (performed : Performed signature)
    (past : History signature) :
    lastSighting id (performed :: past) =
      (sighting id performed).or (lastSighting id past) := by
  simp only [lastSighting, List.findSome?_cons]
  cases sighting id performed <;> rfl

theorem sighting_of_horizon {id : String} {performed : Performed signature}
    (isHorizon : performed.call.IsHorizon) : sighting id performed = none := by
  obtain ⟨call, answer⟩ := performed
  cases call with
  | horizon lookup => cases answer <;> rfl
  | _ => exact isHorizon.elim

theorem lastSighting_append {id : String} {recent past : History signature}
    (blind : ∀ performed ∈ recent, sighting id performed = none) :
    lastSighting id (recent ++ past) = lastSighting id past := by
  induction recent with
  | nil => rfl
  | cons performed recent ih =>
      rw [List.cons_append, lastSighting_cons, blind performed List.mem_cons_self,
        Option.none_or]
      exact ih fun other member => blind other (List.mem_cons_of_mem performed member)

theorem Guarded.cons {past : History signature} {id : String} (guarded : Guarded past id)
    {performed : Performed signature} (blind : sighting id performed = none) :
    Guarded (performed :: past) id := by
  obtain ⟨seen, last, isOpen⟩ := guarded
  exact ⟨seen, by rw [lastSighting_cons, blind, Option.none_or, last], isOpen⟩

theorem HasRead.mono {past later : History signature} {intent : PaymentIntent}
    (read : HasRead past intent) (grows : past ⊆ later) : HasRead later intent := by
  obtain ⟨performed, member, returned⟩ := read
  exact ⟨performed, grows member, returned⟩

theorem Marks.mono {past later : History signature} {id : String} {patch : PaymentIntentPatch}
    (marks : Marks past id patch) (grows : past ⊆ later) : Marks later id patch := by
  cases marks with
  | succeeded intent hash payer current isIntent read evidence =>
      exact .succeeded intent hash payer current isIntent (read.mono grows) (evidence.mono grows)
  | failed intent record hash isIntent read shown unsuccessful =>
      exact .failed intent record hash isIntent (read.mono grows) (grows shown) unsuccessful
  | expired now take rows row clock listed member isRow =>
      exact .expired now take rows row (grows clock) (grows listed) member isRow

/-- The history went on without a sighting of any intent but `id`. -/
def GoesOn (id : String) (past later : History signature) : Prop :=
  ∃ recent, later = recent ++ past ∧
    ∀ performed ∈ recent, ∀ other, other ≠ id → sighting other performed = none

theorem GoesOn.refl (id : String) (past : History signature) : GoesOn id past past :=
  ⟨[], rfl, by simp⟩

theorem GoesOn.cons {id : String} {past later : History signature} (goesOn : GoesOn id past later)
    {performed : Performed signature}
    (blind : ∀ other, other ≠ id → sighting other performed = none) :
    GoesOn id past (performed :: later) := by
  obtain ⟨recent, rfl, recentBlind⟩ := goesOn
  refine ⟨performed :: recent, rfl, fun entry member => ?_⟩
  rcases List.mem_cons.mp member with rfl | older
  · exact blind
  · exact recentBlind entry older

theorem GoesOn.trans {id : String} {past later latest : History signature}
    (first : GoesOn id past later) (second : GoesOn id later latest) : GoesOn id past latest := by
  obtain ⟨recent, rfl, blind⟩ := first
  obtain ⟨more, rfl, moreBlind⟩ := second
  refine ⟨more ++ recent, by simp, fun performed member => ?_⟩
  rcases List.mem_append.mp member with newer | older
  · exact moreBlind performed newer
  · exact blind performed older

theorem GoesOn.subset {id : String} {past later : History signature}
    (goesOn : GoesOn id past later) : past ⊆ later := by
  obtain ⟨recent, rfl, -⟩ := goesOn
  exact List.subset_append_right recent past

theorem GoesOn.lastSighting_eq {id other : String} {past later : History signature}
    (goesOn : GoesOn id past later) (differ : other ≠ id) :
    lastSighting other later = lastSighting other past := by
  obtain ⟨recent, rfl, blind⟩ := goesOn
  exact lastSighting_append fun performed member => blind performed member other differ

theorem sighting_update_of_ne {id other : String} (differ : other ≠ id)
    (patch : PaymentIntentPatch) (answer : Except ServiceError PaymentIntent) :
    sighting other ⟨.write (.update .paymentIntent id patch), answer⟩ = none := by
  cases answer with
  | error err => rfl
  | ok row => simp [sighting, Call.sights, Ne.symm differ]

/-! ## The helpers -/

section Helpers

variable {request : Request} {past : History signature} {id username : String}
variable {ensures : History signature → Except ServiceError PaymentIntent → Prop}

/-- The request may finalize this intent whenever the history supports it. -/
def MayMark (request : Request) (id : String) : Prop :=
  ∀ past patch, Guarded past id → Marks past id patch →
    permitsTransition request past (.write (.update .paymentIntent id patch))

theorem conforms_markSucceeded {hash : String} {payer : Option String}
    (mayMark : MayMark request id) (guarded : Guarded past id)
    (marks : ∀ current, Marks past id (succeededPatch hash payer current))
    (goesOn : ∀ later outcome, GoesOn id past later → ensures later outcome) :
    (markSucceeded id username hash payer).Conforms Believable (permitsTransition request)
      ensures past := by
  refine conforms_call_bind.mpr ⟨trivial, fun err _ => ?_, fun current _ => ?_⟩
  · exact goesOn _ _ ((GoesOn.refl id past).cons fun _ _ => rfl)
  · have read : GoesOn id past (⟨.query (.intentSource id), .ok current⟩ :: past) :=
      (GoesOn.refl id past).cons fun _ _ => rfl
    have written := fun answer => read.cons fun other differ =>
      sighting_update_of_ne differ (succeededPatch hash payer current) answer
    refine conforms_call_bind.mpr
      ⟨mayMark _ _ (guarded.cons rfl) ((marks current).mono read.subset),
        fun err _ => goesOn _ _ (written _), fun updated _ => ?_⟩
    refine conforms_call_bind.mpr ⟨trivial, fun err _ => ?_, fun _ _ => ?_⟩
    · exact goesOn _ _ ((written _).cons fun _ _ => rfl)
    · refine conforms_call_bind.mpr ⟨trivial, fun err _ => ?_, fun _ _ => ?_⟩
      · exact goesOn _ _ (((written _).cons fun _ _ => rfl).cons fun _ _ => rfl)
      · exact goesOn _ _ (((written _).cons fun _ _ => rfl).cons fun _ _ => rfl)

/-- A helper that patches the intent and announces it. -/
theorem conforms_patchAndEmit {patch : PaymentIntentPatch} {type : WebhookEventType}
    (mayMark : MayMark request id) (guarded : Guarded past id) (marks : Marks past id patch)
    (goesOn : ∀ later outcome, GoesOn id past later → ensures later outcome) :
    (do let updated ← Promise.write (.update .paymentIntent id patch)
        emit username type updated
        pure updated : Promise PaymentIntent).Conforms Believable
      (permitsTransition request) ensures past := by
  have written := fun answer => (GoesOn.refl id past).cons fun other differ =>
    sighting_update_of_ne differ patch answer
  refine conforms_call_bind.mpr ⟨mayMark _ _ guarded marks, fun err _ => goesOn _ _ (written _),
    fun updated _ => ?_⟩
  refine conforms_call_bind.mpr ⟨trivial, fun err _ => ?_, fun _ _ => ?_⟩
  · exact goesOn _ _ ((written _).cons fun _ _ => rfl)
  · exact goesOn _ _ ((written _).cons fun _ _ => rfl)

end Helpers

/-! ## The observer -/

theorem Guarded.goesOn {past later : History signature} {id other : String}
    (guarded : Guarded past other) (goesOn : GoesOn id past later) (differ : other ≠ id) :
    Guarded later other := by
  obtain ⟨seen, last, isOpen⟩ := guarded
  exact ⟨seen, by rw [goesOn.lastSighting_eq differ, last], isOpen⟩

/-- What is left of a batch: no remaining intent was seen settled since it was listed. -/
structure Batch (listing : Performed signature) (rows items : List (PaymentIntent × String))
    (past : History signature) : Prop where
  listed : listing ∈ past
  members : ∀ row ∈ items, row ∈ rows
  guarded : ∀ row ∈ items, Guarded past row.1.id
  nodup : (batchIds items).Nodup

theorem Batch.next {listing : Performed signature} {rows items : List (PaymentIntent × String)}
    {row : PaymentIntent × String} {past later : History signature}
    (batch : Batch listing rows (row :: items) past) (goesOn : GoesOn row.1.id past later) :
    Batch listing rows items later := by
  obtain ⟨absent, nodup⟩ := List.nodup_cons.mp batch.nodup
  refine ⟨goesOn.subset batch.listed,
    fun other member => batch.members other (List.mem_cons_of_mem row member),
    fun other member => ?_, nodup⟩
  have otherId : other.1.id ∈ batchIds items := List.mem_map_of_mem member
  refine (batch.guarded other (List.mem_cons_of_mem row member)).goesOn goesOn fun same => ?_
  rw [same] at otherId
  exact absent otherId

theorem guarded_of_listed {past : History signature} {performed : Performed signature}
    {rows : List (PaymentIntent × String)} {row : PaymentIntent × String}
    (sights : ∀ id, sighting id performed = sightedIn rows id)
    (unsettled : ∀ row ∈ rows, row.1.status ≠ .succeeded) (member : row ∈ rows) :
    Guarded (performed :: past) row.1.id := by
  cases found : rows.find? fun other => other.1.id = row.1.id with
  | none =>
      have absent := List.find?_eq_none.mp found row member
      simp at absent
  | some other =>
      refine ⟨some other.1.status, ?_, ?_⟩
      · rw [lastSighting_cons, sights, sightedIn, found]
        rfl
      · intro same
        exact unsettled other (List.mem_of_find?_eq_some found) (Option.some.inj same)

section Observer

variable {deployment : Deployment} {node : Nat}

theorem mayMark_tick (id : String) : MayMark (.tick node) id :=
  fun _ _ guarded marks => ⟨guarded, marks⟩

theorem conforms_expiryPass (past : History signature) :
    (StellarObserver.expiryPass deployment).Conforms Believable
      (permitsTransition (.tick node)) (fun _ _ => True) past := by
  refine conforms_call_bind.mpr ⟨trivial, fun err _ => trivial, fun now _ => ?_⟩
  refine conforms_call_bind.mpr ⟨trivial, fun err _ => trivial, fun rows relied => ?_⟩
  obtain ⟨nodup, unsettled⟩ := relied rows rfl
  let listing : Performed signature :=
    ⟨.query (.expiredIntents now deployment.config.batchSize), .ok rows⟩
  refine conforms_forM
    (fun items later => Batch listing rows items later ∧ ⟨.now, .ok now⟩ ∈ later)
    _ ?_ (fun _ _ => trivial) rows ⟨⟨List.mem_cons_self, fun _ member => member,
      fun row member => guarded_of_listed (fun _ => rfl)
        (fun row member => (unsettled row member).1) member, nodup⟩, by simp⟩
  rintro ⟨intent, owner⟩ rest later ⟨batch, clock⟩
  refine conforms_logged ?_
  rw [conforms_bind]
  have isListed := batch.members _ List.mem_cons_self
  refine conforms_patchAndEmit (mayMark_tick intent.id)
    (batch.guarded _ List.mem_cons_self)
    (.expired now _ rows (intent, owner) clock batch.listed isListed rfl)
    fun latest outcome goesOn => ?_
  have remaining := And.intro (batch.next goesOn) (goesOn.subset clock)
  cases outcome with
  | ok updated => exact remaining
  | error err => exact remaining

theorem conforms_reconcilePass (past : History signature) :
    (StellarObserver.reconcilePass deployment).Conforms Believable
      (permitsTransition (.tick node)) (fun _ _ => True) past := by
  refine conforms_call_bind.mpr ⟨trivial, fun err _ => trivial, fun rows relied => ?_⟩
  obtain ⟨nodup, unsettled⟩ := relied rows rfl
  let listing : Performed signature :=
    ⟨.query (.pendingIntents deployment.config.batchSize), .ok rows⟩
  refine conforms_forM (Batch listing rows) _ ?_ (fun _ _ => trivial) rows
    ⟨List.mem_cons_self, fun _ member => member,
      fun row member => guarded_of_listed (fun _ => rfl) unsettled member, nodup⟩
  rintro ⟨intent, owner⟩ rest later batch
  refine conforms_logged ?_
  have isListed := batch.members _ List.mem_cons_self
  have read : HasRead later intent :=
    ⟨listing, batch.listed, List.mem_map_of_mem (f := Prod.fst) isListed⟩
  change (StellarObserver.verify intent >>= _).Conforms _ _ _ _
  rw [conforms_bind]
  refine (conforms_verify intent later).extend
    (fun _ _ _ isHorizon => permitsTransition_of_peripheral (.inl isHorizon.peripheral))
    fun recent outcome kinds holds => ?_
  have goesOn : GoesOn intent.id later (recent ++ later) :=
    ⟨recent, rfl, fun performed member _ _ => sighting_of_horizon (kinds performed member)⟩
  have guarded : Guarded (recent ++ later) intent.id := by
    obtain ⟨seen, last, isOpen⟩ := batch.guarded _ List.mem_cons_self
    refine ⟨seen, ?_, isOpen⟩
    rw [lastSighting_append fun performed member => sighting_of_horizon (kinds performed member),
      last]
  cases outcome with
  | error err => exact batch.next goesOn
  | ok result =>
      refine (andThen_ok _ _).mpr ?_
      simp only
      split
      · rename_i hash isValid isHash
        obtain ⟨shown, sameHash, evidence⟩ := (holds result rfl).valid isValid
        obtain rfl : hash = shown := by
          rw [sameHash] at isHash
          exact (Option.some.inj (Option.filter_eq_some_iff.mp isHash).1).symm
        rw [conforms_bind]
        refine conforms_markSucceeded (mayMark_tick intent.id) guarded
          (fun current => .succeeded intent hash _ current rfl (read.mono goesOn.subset) evidence)
          fun latest outcome marked => ?_
        have remaining := batch.next (goesOn.trans marked)
        cases outcome with
        | ok updated => exact remaining
        | error err => exact remaining
      · exact batch.next goesOn

theorem conforms_tick (past : History signature) :
    (StellarObserver.tick deployment node).Conforms Believable
      (permitsTransition (.tick node)) (fun _ _ => True) past := by
  refine conforms_call_bind.mpr ⟨trivial, fun err _ => trivial, fun entered _ => ?_⟩
  split
  · rw [conforms_bind]
    refine (@conforms_logged _ _ _ (fun _ _ => True) _ ?_).ensuring fun later outcome _ => ?_
    · rw [conforms_bind]
      refine (conforms_expiryPass _).ensuring fun later outcome _ => ?_
      cases outcome with
      | ok value => exact conforms_reconcilePass later
      | error err => exact trivial
    · cases outcome with
      | ok value => exact ⟨trivial, fun _ _ => trivial⟩
      | error err => exact trivial
  · exact trivial

end Observer

/-! ## The requests -/

section Requests

variable {deployment : Deployment}

theorem conforms_assertOwned {request : Request} {consumer : GatewayConsumer} {id : String}
    {past : History signature} {ensures : History signature → Except ServiceError Unit → Prop}
    (owned : ensures (⟨.query (.intentIdOwned id consumer.username), .ok (some id)⟩ :: past)
      (.ok ()))
    (failed : ∀ later err, ensures later (.error err)) :
    (assertOwned consumer id).Conforms Believable (permitsTransition request) ensures past := by
  refine conforms_call_bind.mpr ⟨trivial, fun err _ => failed _ _, fun found relied => ?_⟩
  split
  · exact failed _ _
  · rename_i shown
    obtain rfl : shown = id := relied _ rfl shown rfl
    exact owned

theorem conforms_update (consumer : GatewayConsumer) (id : String)
    (dto : UpdatePaymentIntentDto) :
    (update deployment consumer id dto).Conforms Believable
      (permitsTransition (.paymentIntents (.update consumer id dto))) (fun _ _ => True) [] := by
  unfold update
  rw [conforms_bind]
  refine conforms_assertOwned ((andThen_ok _ _).mpr ?_) fun _ _ => trivial
  refine conforms_call_bind.mpr ⟨⟨rfl, rfl, List.mem_cons_self⟩, fun _ _ => trivial,
    fun updated _ => ?_⟩
  exact conforms_call_bind.mpr ⟨trivial, fun _ _ => trivial, fun _ _ => trivial⟩

theorem conforms_remove (consumer : GatewayConsumer) (id : String) :
    (remove consumer id).Conforms Believable
      (permitsTransition (.paymentIntents (.remove consumer id))) (fun _ _ => True) [] := by
  unfold remove
  rw [conforms_bind]
  refine conforms_assertOwned ((andThen_ok _ _).mpr ?_) fun _ _ => trivial
  refine conforms_call_bind.mpr ⟨trivial, fun _ _ => trivial, fun status _ => ?_⟩
  split
  · exact trivial
  · rename_i notSettled
    have guarded : Guarded (⟨.query (.intentStatus id), .ok status⟩ ::
        [⟨.query (.intentIdOwned id consumer.username), .ok (some id)⟩]) id :=
      ⟨status, by simp [sighting, Call.sights], notSettled⟩
    refine conforms_call_bind.mpr ⟨⟨rfl, guarded, by simp⟩, fun _ _ => trivial,
      fun deleted _ => ?_⟩
    exact conforms_call_bind.mpr ⟨trivial, fun _ _ => trivial, fun _ _ => trivial⟩

theorem conforms_validate (consumer : GatewayConsumer) (id txHash : String) :
    (validate deployment consumer id txHash).Conforms Believable
      (permitsTransition (.paymentIntents (.validate consumer id txHash)))
      (fun _ _ => True) [] := by
  refine conforms_call_bind.mpr ⟨trivial, fun _ _ => trivial, fun found relied => ?_⟩
  split
  · exact trivial
  · rename_i intent
    obtain rfl : intent.id = id := relied _ rfl intent rfl
    let reading : Performed signature :=
      ⟨.query (.intentOwned intent.id consumer.username), .ok (some intent)⟩
    split
    · rw [conforms_bind]
      have silent : (withQr deployment intent).Calls fun _ => False := calls_withQr intent
      refine silent.conforms (fun _ _ _ no => no.elim) fun _ outcome _ => ?_
      cases outcome <;> trivial
    · rename_i notSettled
      have mayMark : MayMark (.paymentIntents (.validate consumer intent.id txHash)) intent.id :=
        fun _ _ guarded marks => ⟨rfl, guarded, marks⟩
      rw [conforms_bind]
      refine (conforms_verifyByHash intent txHash _).extend
        (fun _ _ _ isHorizon => permitsTransition_of_peripheral (.inl isHorizon.peripheral))
        fun recent outcome kinds holds => ?_
      cases outcome with
      | error err => exact trivial
      | ok result =>
          refine (andThen_ok _ _).mpr ?_
          have verdict := holds result rfl
          have read : HasRead (recent ++ [reading]) intent :=
            ⟨reading, by simp, by simp [reading, returnedIntents, Call.returnedIntents]⟩
          have guarded : Guarded (recent ++ [reading]) intent.id := by
            refine ⟨some intent.status, ?_, by simpa using notSettled⟩
            rw [lastSighting_append fun performed member =>
              sighting_of_horizon (kinds performed member)]
            simp [reading, sighting, Call.sights]
          have view : ∀ updated : PaymentIntent, ∀ outcome : PaymentIntentView → ValidationOutcome,
              ∀ later, (withQr deployment updated >>= fun view => pure (outcome view) :
                Promise ValidationOutcome).Conforms Believable
                  (permitsTransition (.paymentIntents (.validate consumer intent.id txHash)))
                  (fun _ _ => True) later := by
            intro updated outcome later
            have silent : (withQr deployment updated).Calls fun _ => False := calls_withQr updated
            exact (silent.bind fun _ => calls_pure _).conforms (fun _ _ _ no => no.elim)
              fun _ _ _ => trivial
          unfold settle
          split
          · rename_i isValid
            obtain ⟨hash, isHash, evidence⟩ := verdict.valid isValid
            rw [isHash, conforms_bind]
            refine conforms_markSucceeded mayMark guarded
              (fun current => .succeeded intent hash _ current rfl read evidence)
              fun later outcome _ => ?_
            cases outcome with
            | error err => exact trivial
            | ok updated => exact view updated _ later
          · split
            · rename_i isFailed
              obtain ⟨-, record, shown, unsuccessful⟩ := verdict.failed isFailed
              rw [conforms_bind]
              refine conforms_patchAndEmit mayMark guarded
                (.failed intent record _ rfl read shown unsuccessful)
                fun later outcome _ => ?_
              cases outcome with
              | error err => exact trivial
              | ok updated => exact view updated _ later
            · exact trivial

/-- Every request keeps to the statements it is permitted. -/
theorem transitions_fulfilled : (transitions deployment).Fulfilled where
  answers performed := Performs.believable ⟨_, _, performed, rfl, rfl⟩
  bodies request := by
    have adding : ∀ program : Promise Reply, program.Calls Call.Adds →
        (∀ past new, permitsTransition request past (.write (.create .paymentIntent new))) →
        program.Conforms Believable (permitsTransition request) (fun _ _ => True) [] := by
      intro program calls mayCreate
      refine calls.conforms (fun recent call _ adds => ?_) fun _ _ _ => trivial
      unfold permitsTransition
      split
      · rename_i new
        exact mayCreate [] new
      · exact adds.elim
      · exact adds.elim
      · trivial
    by_cases isPeripheral : request.Peripheral
    · exact (calls_peripheral isPeripheral).conforms
        (fun _ _ _ peripheral => permitsTransition_of_peripheral (.inl peripheral))
        fun _ _ _ => trivial
    · cases request with
      | paymentIntents request =>
          cases request with
          | createTx consumer dto =>
              exact adding _ ((calls_createTx consumer dto).map _) fun _ _ => trivial
          | createPay consumer dto =>
              exact adding _ ((calls_createPay consumer dto).map _) fun _ _ => trivial
          | findAll consumer query => exact absurd trivial isPeripheral
          | findOne consumer id => exact absurd trivial isPeripheral
          | update consumer id dto =>
              exact (conforms_map _ _).mpr (conforms_update consumer id dto)
          | remove consumer id => exact (conforms_map _ _).mpr (conforms_remove consumer id)
          | validate consumer id txHash =>
              exact (conforms_map _ _).mpr (conforms_validate consumer id txHash)
      | tick node => exact (conforms_map _ _).mpr (conforms_tick [])
      | _ => exact absurd trivial isPeripheral

end Requests

end CosmosPay
