import CosmosPay.Lifecycle
import CosmosPay.Progress

/-!
# Intents that no tick looks at

A batch has room for the oldest pending intents only.  As long as so many of them are neither
paid nor past their lifetime, and their owners leave them alone, no tick gets to a newer one.
-/

namespace CosmosPay

open Awaiting Tables Program PaymentIntents

/-! ## Batches of pending intents -/

/-- A batch of pending intents has this size. -/
def Call.Batches (size : Nat) : Call → Prop
  | .query (.pendingIntents take) => take = size
  | _ => True

theorem Call.Handles.batches {call : Call} (handles : call.Handles) (size : Nat) :
    call.Batches size := by
  unfold Call.Batches
  split <;> first | exact handles.elim | trivial

/-- The batches of ticks have the configured size. -/
def batches (deployment : Deployment) : Contract (service deployment) where
  relies _ := True
  permits request _ call := ∀ node, request = .tick node →
    call.Batches deployment.config.batchSize
  ensures _ _ _ := True

section Batches

variable {deployment : Deployment}

theorem batches_tick (node : Nat) :
    (StellarObserver.tick deployment node).Calls
      (Call.Batches deployment.config.batchSize) := by
  refine Calls.call_bind (by trivial) fun entered => ?_
  split
  · refine Calls.bind (Calls.tryCatch (Calls.bind ?_ fun _ => ?_) fun _ => calls_pure _)
      fun _ => calls_call (by trivial)
    · exact Calls.call_bind (by trivial) fun _ => Calls.call_bind (by trivial) fun rows =>
        (calls_forM handles_expire rows).mono fun _ handles => handles.batches _
    · exact Calls.call_bind rfl fun rows =>
        (calls_forM (fun row => handles_logged (handles_reconcile row)) rows).mono
          fun _ handles => handles.batches _
  · exact calls_pure _

theorem batches_fulfilled : (batches deployment).Fulfilled where
  answers _ := trivial
  bodies request := by
    by_cases isTick : ∃ node, request = .tick node
    · obtain ⟨node, rfl⟩ := isTick
      exact ((batches_tick node).map _).conforms (fun _ _ _ isBatch _ _ => isBatch)
        fun _ _ _ => trivial
    · refine conforms_of_forall _ (fun past call node isNode => ?_) fun _ _ => trivial
      exact absurd ⟨node, isNode⟩ isTick

end Batches

/-! ## When rows were created -/

section Runs

variable {deployment : Deployment}
variable {allows : Config (service deployment) → Label (service deployment) → Prop}
variable {config config' : Config (service deployment)} {state : World}

/-- A step keeps the terms of an intent, or creates it at that time. -/
theorem terms_of_step (step : Step allows config config') {id : String} {row : PaymentIntent}
    (found : config'.state.store.find? .paymentIntent id = some row) :
    (∃ old, config.state.store.find? .paymentIntent id = some old ∧ old.terms = row.terms) ∨
      row.createdAt = config.state.clock := by
  rcases step_cases step with ⟨-, drifts⟩ | ⟨thread, choice, request, performed, resumes⟩
  · rw [drifts.store] at found
    exact .inl ⟨row, found, rfl⟩
  cases resumes.performs.rows .paymentIntent with
  | kept same => exact .inl ⟨row, (same id).symm.trans found, rfl⟩
  | created new drawn createdAt isCreate fresh change =>
      rw [change.lookup] at found
      split at found
      · obtain rfl := Option.some.inj found
        have performs := resumes.performs
        rw [isCreate] at performs
        obtain ⟨_, -, isRow, -⟩ := performs.of_create
        exact .inr (congrArg PaymentIntent.createdAt isRow)
      · exact .inl ⟨row, found, rfl⟩
  | updated key patch old isUpdate change =>
      rw [change.lookup] at found
      split at found
      · rename_i isId
        subst isId
        obtain rfl := Option.some.inj found
        exact .inl ⟨old, change.found, (terms_apply patch old).symm⟩
      · exact .inl ⟨row, found, rfl⟩
  | deleted key old isDelete change =>
      rw [change.lookup] at found
      split at found
      · cases found
      · exact .inl ⟨row, found, rfl⟩
  | cascaded key old isDelivery => cases isDelivery

theorem createdAt_of_terms_eq {first second : PaymentIntent} (same : first.terms = second.terms) :
    first.createdAt = second.createdAt := by
  have times : first.terms.createdAt = second.terms.createdAt := by rw [same]
  exact times

theorem run_clock (run : Run allows config config') : config.state.clock ≤ config'.state.clock :=
  (now_stable config.state.clock).run run (Nat.le_refl _)

/-- No row comes from the future. -/
theorem createdAt_le_clock (start : state.store = .empty)
    (run : Run allows (Config.initial state) config) {id : String} {row : PaymentIntent}
    (found : config.state.store.find? .paymentIntent id = some row) :
    row.createdAt ≤ config.state.clock := by
  revert row
  refine run.keeps (I := fun config : Config (service deployment) => ∀ {row : PaymentIntent},
    config.state.store.find? .paymentIntent id = some row →
      row.createdAt ≤ config.state.clock) ?_ ?_
  · intro row found
    rw [find?_initial start] at found
    cases found
  · intro config config' before ih step row found
    have later := step_clock step
    rcases terms_of_step step found with ⟨old, oldFound, same⟩ | created
    · have early := ih oldFound
      rw [createdAt_of_terms_eq same] at early
      exact early.trans later
    · omega

/-- A row that is stored was stored before, or has been created since. -/
theorem stored_earlier (run : Run allows config config') {id : String} {row : PaymentIntent}
    (found : config'.state.store.find? .paymentIntent id = some row) :
    (∃ old, config.state.store.find? .paymentIntent id = some old ∧ old.terms = row.terms) ∨
      config.state.clock ≤ row.createdAt := by
  revert row
  refine run.keeps (I := fun config' : Config (service deployment) => ∀ {row : PaymentIntent},
    config'.state.store.find? .paymentIntent id = some row →
      (∃ old, config.state.store.find? .paymentIntent id = some old ∧ old.terms = row.terms) ∨
        config.state.clock ≤ row.createdAt) ?_ ?_
  · exact fun found => .inl ⟨_, found, rfl⟩
  · intro middle config' reached ih step row found
    rcases terms_of_step step found with ⟨old, oldFound, same⟩ | created
    · rw [← same, ← createdAt_of_terms_eq same]
      exact ih oldFound
    · have earlier := run_clock reached
      exact .inr (by omega)

/-! ## Intents that wait -/

/-- A request of a client that names the intent other than to read it. -/
def Request.names (id : String) : Request → Bool
  | .paymentIntents (.update _ named _) => named = id
  | .paymentIntents (.remove _ named) => named = id
  | .paymentIntents (.validate _ named _) => named = id
  | _ => false

/-- The intent is stored, unpaid and within its lifetime, and no request has named it. -/
structure Waits (config : Config (service deployment)) (row : PaymentIntent) : Prop where
  stored : config.state.store.find? .paymentIntent row.id = some row
  unpaid : ∀ hash, ¬ PaidBy config.state.ledger row hash
  alive : ∀ expiresAt, row.expiresAt = some expiresAt → config.state.clock ≤ expiresAt
  alone : ∀ (index : Nat) (thread : Thread (service deployment)),
    config.threads[index]? = some thread → Request.names row.id thread.request = false

/-- An intent that waits has been pending all the time. -/
theorem Waits.pending (start : state.store = .empty)
    (reached : Run allows (Config.initial state) config) (later : Run allows config config')
    {row old : PaymentIntent} (waits : Waits config' row) (same : old.terms = row.terms)
    (found : config.state.store.find? .paymentIntent row.id = some old) :
    old.status = .pending := by
  rcases justified_of_stored start reached found with isPending |
    ⟨thread, request, patch, patched, -⟩
  · exact isPending
  obtain ⟨⟨code, lookup⟩, -, supports⟩ := (patched.run later).of_terms_eq same
  have alone := waits.alone thread _ lookup
  cases supports with
  | reported consumer dto => simp [Request.names] at alone
  | settled _ hash payer current paid => exact absurd paid (waits.unpaid hash)
  | failed consumer hash => simp [Request.names] at alone
  | expired node expiresAt isExpiry ended =>
      have alive := waits.alive expiresAt isExpiry
      omega

/-- Each row of the listing stands behind all that are older. -/
theorem length_front_lt {store : Store} {order : List String} {take : Nat}
    {rows : List (PaymentIntent × String)}
    (answered : (Query.pendingIntents take).answer order store = some rows)
    {row : PaymentIntent × String} (member : row ∈ rows) {front : List PaymentIntent}
    (distinct : (front.map PaymentIntent.id).Nodup)
    (overtaken : ∀ first ∈ front, ∃ old, store.find? .paymentIntent first.id = some old ∧
      old.status = .pending ∧ old.createdAt < row.1.createdAt) : front.length < take := by
  obtain ⟨arranged, listing, rfl⟩ := exists_listing_of_pending answered
  obtain ⟨intent, isTaken, isRow⟩ := List.mem_filterMap.mp member
  obtain ⟨owner, -, rfl⟩ := Option.map_eq_some_iff.mp isRow
  obtain ⟨index, isIndex⟩ := List.mem_iff_getElem?.mp isTaken
  rw [List.getElem?_take] at isIndex
  split at isIndex
  · rename_i few
    have behind := (listing.lt_iff isIndex intent.createdAt).not.mp (lt_irrefl _)
    let waiting := store.intents.rows.filter fun row => row.status = .pending
    let older (other : PaymentIntent) : Bool := (other.createdAt : Int) < intent.createdAt
    have included : front.map PaymentIntent.id ⊆ (waiting.filter older).map PaymentIntent.id := by
      intro id isId
      obtain ⟨first, isFirst, rfl⟩ := List.mem_map.mp isId
      obtain ⟨old, found, isPending, before⟩ := overtaken first isFirst
      have waits : old ∈ waiting :=
        List.mem_filter.mpr ⟨Table.mem_of_find? found, decide_eq_true isPending⟩
      exact List.mem_map.mpr ⟨old, List.mem_filter.mpr
        ⟨waits, decide_eq_true (Int.ofNat_lt.mpr before)⟩, Table.key_of_find? found⟩
    calc front.length
      _ = (front.map PaymentIntent.id).length := (List.length_map _).symm
      _ ≤ ((waiting.filter older).map PaymentIntent.id).length :=
        (List.subperm_of_subset distinct included).length_le
      _ = waiting.countP older := by rw [List.length_map, List.countP_eq_length_filter]
      _ ≤ index := not_lt.mp behind
      _ < take := few
  · cases isIndex

/-- As long as a full batch of older intents waits, no tick that a run has seen, of whatever
instance and however interleaved with other requests, has listed a newer intent for
reconciliation. -/
theorem crowded_out (start : state.store = .empty)
    (run : Run allows (Config.initial state) config) {front : List PaymentIntent}
    (distinct : (front.map PaymentIntent.id).Nodup)
    (full : deployment.config.batchSize ≤ front.length)
    (waits : ∀ row ∈ front, Waits config row) {intent : PaymentIntent}
    (stored : config.state.store.find? .paymentIntent intent.id = some intent)
    (newer : ∀ row ∈ front, row.createdAt < intent.createdAt)
    (thread node take : Nat) (code : Promise Reply)
    (isTick : config.threads[thread]? = some ⟨.tick node, code⟩)
    (rows : List (PaymentIntent × String))
    (listed : ⟨.query (.pendingIntents take), .ok rows⟩ ∈ config.past thread) :
    intent.id ∉ batchIds rows := by
  intro isListed
  obtain ⟨before, after, choice, reached, resumes, later⟩ :=
    exists_resumes_of_past run isTick listed
  have onwards : Run allows before config := .head resumes.step later
  obtain ⟨resume, paused, -⟩ := resumes.paused
  obtain rfl : take = deployment.config.batchSize :=
    reached.permitted batches_fulfilled paused node rfl
  obtain ⟨-, order, answered⟩ := resumes.performs.of_query
  obtain ⟨row, member, isId⟩ := List.mem_map.mp isListed
  have found : before.state.store.find? .paymentIntent row.1.id = some row.1 :=
    (lists_of_pending answered).1.shown row member
  have kept : KeepsTerms row.1 before.state :=
    ⟨Store.issued_of_find? found, fun other isOther => by
      rw [Option.some.inj (isOther.symm.trans found)]⟩
  have sameTerms := ((keepsTerms_stable row.1).run onwards kept).2 intent (isId ▸ stored)
  have sameTime := createdAt_of_terms_eq sameTerms
  have past := createdAt_le_clock start reached found
  have fewer := length_front_lt answered member distinct fun first isFirst => by
    have older := newer first isFirst
    rcases stored_earlier onwards (waits first isFirst).stored with ⟨old, isOld, same⟩ | created
    · refine ⟨old, isOld, (waits first isFirst).pending start reached onwards same isOld, ?_⟩
      rw [createdAt_of_terms_eq same]
      omega
    · omega
  omega

end Runs

/-- Batches have room for one intent. -/
def Sample.narrowDeployment : Deployment :=
  { Sample.deployment with config := { Sample.deployment.config with batchSize := 1 } }

/-- Alice creates a PAY intent with this memo. -/
def Sample.createNarrow (thread : Nat) (memo drawn id : String) :
    List (Label (service Sample.narrowDeployment)) :=
  [.issue (.paymentIntents (.createPay (Sample.caller "alice") (Sample.payDto memo))),
    .resume thread (.draw drawn), .resume thread .serve, .resume thread .serve,
    .resume thread (.draw id), .resume thread .serve]

/-- An older intent is not paid, and a tick lists it instead of a newer one, which is. -/
def crowded : Config (service Sample.narrowDeployment) :=
  after (fun _ _ => true)
    (Sample.createNarrow 0 "8" "c" "first" ++ .move (.pass 1000) ::
      Sample.createNarrow 2 "7" "d" "second" ++
      [.issue (.tick 0), .resume 4 .serve, .resume 4 .serve, .resume 4 (.arrange []),
        .resume 4 (.arrange ["first", "second"])])
    (.initial Sample.world)

/-- What the pending batches of a tick have listed. -/
def Call.pendingIds : (call : Call) → signature.Result call → Option (List String)
  | .query (.pendingIntents _), .ok rows => some (batchIds rows)
  | _, _ => none

theorem eq_of_pendingIds {performed : Performed signature} {ids : List String}
    (isListing : performed.call.pendingIds performed.answer = some ids) : ∃ take rows,
    performed = ⟨.query (.pendingIntents take), .ok rows⟩ ∧ batchIds rows = ids := by
  obtain ⟨call, answer⟩ := performed
  cases call with
  | query asked =>
      cases asked with
      | pendingIntents take =>
          cases answer with
          | ok rows => exact ⟨take, rows, rfl, Option.some.inj isListing⟩
          | error err => cases isListing
      | _ => cases isListing
  | _ => cases isListing

theorem crowded_out_of_crowded : ∃ intent take rows,
    crowded.state.store.find? .paymentIntent "second" = some intent ∧
      PaidBy crowded.state.ledger intent (Sample.hash '1') ∧
      ⟨.query (.pendingIntents take), .ok rows⟩ ∈ crowded.past 4 ∧ batchIds rows = ["first"] ∧
      intent.id ∉ batchIds rows := by
  have shown : ((crowded.state.store.find? .paymentIntent "first").bind fun first =>
      (crowded.state.store.find? .paymentIntent "second").map fun second =>
        decide (first.createdAt < second.createdAt ∧
          (∀ tx ∈ crowded.state.ledger.rows, ¬ tx.Fulfils first) ∧
          first.expiresAt.all (fun expiresAt => crowded.state.clock ≤ expiresAt) = true ∧
          (crowded.state.ledger.find? (second.network, Sample.hash '1')).any
            (fun tx => tx.Fulfils second) = true)) = some true := by
    decide +kernel
  have listed : (crowded.past 4).findSome? (fun performed =>
      performed.call.pendingIds performed.answer) = some ["first"] := by
    decide +kernel
  have unnamed : (crowded.threads.all fun thread =>
      !Request.names "first" thread.request) = true := by
    decide +kernel
  have ticking : (crowded.threads[4]?).any (fun thread =>
      Request.isTick thread.request) = true := by
    decide +kernel
  obtain ⟨first, isFirst, decided⟩ := Option.bind_eq_some_iff.mp shown
  obtain ⟨second, isSecond, decided⟩ := Option.map_eq_some_iff.mp decided
  obtain ⟨older, unpaid, alive, paid⟩ := of_decide_eq_true decided
  obtain ⟨performed, member, isListing⟩ := List.exists_of_findSome?_eq_some listed
  obtain ⟨take, rows, rfl, ids⟩ := eq_of_pendingIds isListing
  rw [Option.any_eq_true] at paid ticking
  obtain ⟨tx, landed, fulfils⟩ := paid
  obtain ⟨⟨request, code⟩, lookup, isTick⟩ := ticking
  obtain ⟨node, rfl⟩ : ∃ node, request = .tick node := by
    cases request with
    | tick node => exact ⟨node, rfl⟩
    | _ => cases isTick
  have isId : first.id = "first" := Table.key_of_find? isFirst
  have waits : Waits crowded first := by
    refine ⟨isId ▸ isFirst, ?_, fun expiresAt isExpiry => ?_, fun index thread isThread => ?_⟩
    · rintro hash ⟨tx, landed, fulfils⟩
      exact unpaid tx (Table.mem_of_find? landed) fulfils
    · rw [isExpiry] at alive
      exact of_decide_eq_true alive
    · rw [isId]
      have alone := List.all_eq_true.mp unnamed thread (List.mem_of_getElem? isThread)
      simpa using alone
  have stored : crowded.state.store.find? .paymentIntent second.id = some second := by
    rw [show second.id = "second" from Table.key_of_find? isSecond]
    exact isSecond
  have run : Run (fun _ _ => true = true) (.initial Sample.world) crowded :=
    run_after (fun _ _ checked => checked) _ _
  have distinct : ([first].map PaymentIntent.id).Nodup := List.nodup_singleton first.id
  refine ⟨second, take, rows, isSecond, ⟨tx, landed, of_decide_eq_true fulfils⟩, member, ids, ?_⟩
  exact crowded_out rfl run distinct (Nat.le_refl 1)
    (fun row isRow => List.mem_singleton.mp isRow ▸ waits) stored
    (fun row isRow => List.mem_singleton.mp isRow ▸ older) 4 node take code lookup rows member

end CosmosPay
