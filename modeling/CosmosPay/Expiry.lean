import CosmosPay.Payment

/-!
# Expiry

A tick expires the open intents past their lifetime before it looks for payments, and
it never looks for the payment of a submitted one.  It expires an unpaid intent only as
long as no intent in the batch that it reads has been paid in time.
-/

namespace CosmosPay

open Awaiting Tables Program PaymentIntents

/-- A transaction on the ledger fulfils the intent and landed within its lifetime. -/
def PaidInTime (world : World) (intent : PaymentIntent) : Prop :=
  ∃ tx ∈ world.ledger.rows, tx.network = intent.network ∧ tx.Fulfils intent ∧
    ∃ expiresAt ∈ intent.expiresAt, tx.landedAt < expiresAt

instance decidablePaidInTime (world : World) (intent : PaymentIntent) :
    Decidable (PaidInTime world intent) :=
  inferInstanceAs (Decidable (∃ tx ∈ world.ledger.rows, _))

theorem PaidInTime.of_ledger_eq {world other : World} {intent : PaymentIntent}
    (paid : PaidInTime world intent) (same : world.ledger = other.ledger) :
    PaidInTime other intent := by
  rwa [PaidInTime, same] at paid

theorem PaidInTime.of_terms_eq {world : World} {first second : PaymentIntent}
    (paid : PaidInTime world first) (same : first.terms = second.terms) :
    PaidInTime world second := by
  obtain ⟨tx, member, network, fulfils, expiresAt, isExpiry, landed⟩ := paid
  have expiries : first.terms.expiresAt = second.terms.expiresAt := by rw [same]
  have sameExpiry : first.expiresAt = second.expiresAt := expiries
  rw [sameExpiry] at isExpiry
  exact ⟨tx, member, network.trans (network_of_terms_eq same), fulfils.of_terms_eq same,
    expiresAt, isExpiry, landed⟩

/-- The lifetime of the intent is over and it has not been paid in time. -/
structure LeftUnpaid (intent : PaymentIntent) (world : World) : Prop where
  ended : ∃ expiresAt, intent.expiresAt = some expiresAt ∧ expiresAt ≤ world.clock
  unpaid : ¬ PaidInTime world intent

/-- Whatever lands later, lands too late. -/
theorem leftUnpaid_stable (intent : PaymentIntent) : Stable (LeftUnpaid intent) where
  performs performs left := by
    obtain ⟨ledger, -, clock⟩ := performs.surroundings
    obtain ⟨ended, unpaid⟩ := left
    rw [← clock] at ended
    exact ⟨ended, fun paid => unpaid (paid.of_ledger_eq ledger)⟩
  drifts drifts left := by
    obtain ⟨⟨expiresAt, isExpiry, past⟩, unpaid⟩ := left
    refine ⟨⟨expiresAt, isExpiry, past.trans drifts.clock⟩, ?_⟩
    rintro ⟨tx, member, network, fulfils, other, isOther, landed⟩
    rcases drifts.landed tx member with old | later
    · exact unpaid ⟨tx, old, network, fulfils, other, isOther, landed⟩
    · obtain rfl : expiresAt = other := Option.some.inj (isExpiry.symm.trans isOther)
      omega

theorem now_stable (now : Nat) : Stable fun world => now ≤ world.clock where
  performs performs past := by rwa [performs.surroundings.2.2]
  drifts drifts past := past.trans drifts.clock

/-! ## Batches -/

def Call.NoExpiryBatch : Call → Prop
  | .query (.expiredIntents _ _) => False
  | _ => True

theorem Call.Handles.noExpiryBatch {call : Call} (handles : call.Handles) :
    call.NoExpiryBatch := by
  unfold Call.NoExpiryBatch
  split <;> first | exact handles.elim | trivial

/-- A tick asks for the expired intents with a time that the clock has shown. -/
def permitsExpiryBatch (request : Request) (past : History signature) (call : Call) : Prop :=
  ∀ node, request = .tick node → ∀ now take, call = .query (.expiredIntents now take) →
    ⟨.now, .ok now⟩ ∈ past

def expiryBatches (deployment : Deployment) : Contract (service deployment) where
  relies _ := True
  permits := permitsExpiryBatch
  ensures _ _ _ := True

section Batches

variable {deployment : Deployment} {request : Request} {past : History signature}

theorem permitsExpiryBatch_of_noExpiryBatch {call : Call} (other : call.NoExpiryBatch) :
    permitsExpiryBatch request past call := by
  rintro node - now take rfl
  exact other.elim

theorem calls_reconcilePass :
    (StellarObserver.reconcilePass deployment).Calls Call.NoExpiryBatch :=
  Calls.call_bind trivial fun rows =>
    (calls_forM (fun row => handles_logged (handles_reconcile row)) rows).mono
      fun _ => Call.Handles.noExpiryBatch

/-- Without an expiry batch there is no obligation. -/
theorem permits_calls {α : Type} {program : Promise α} (calls : program.Calls Call.NoExpiryBatch) :
    program.Conforms (fun _ => True) (permitsExpiryBatch request) (fun _ _ => True) past :=
  calls.conforms (fun _ _ _ other => permitsExpiryBatch_of_noExpiryBatch other)
    fun _ _ _ => trivial

theorem permits_tick (node : Nat) :
    (StellarObserver.tick deployment node).Conforms (fun _ => True)
      (permitsExpiryBatch (.tick node)) (fun _ _ => True) [] := by
  refine conforms_call_bind.mpr ⟨permitsExpiryBatch_of_noExpiryBatch trivial,
    fun _ _ => trivial, fun entered _ => ?_⟩
  split
  · rw [conforms_bind]
    refine (@conforms_logged _ _ _ (fun _ _ => True) _ ?_).ensuring fun later outcome _ => ?_
    · rw [conforms_bind]
      refine conforms_call_bind.mpr ⟨permitsExpiryBatch_of_noExpiryBatch trivial,
        fun _ _ => trivial, fun now _ => ?_⟩
      refine conforms_call_bind.mpr ⟨?_, fun _ _ => trivial, fun rows _ => ?_⟩
      · rintro - - shown take asked
        obtain ⟨rfl, -⟩ := Query.expiredIntents.inj (Call.query.inj asked)
        exact List.mem_cons_self
      · have calls := (calls_forM handles_expire rows).mono fun _ => Call.Handles.noExpiryBatch
        refine (permits_calls calls).ensuring fun later outcome _ => ?_
        cases outcome with
        | ok value => exact permits_calls calls_reconcilePass
        | error err => exact trivial
    · cases outcome with
      | ok value => exact permits_calls (calls_call (by trivial))
      | error err => exact trivial
  · exact trivial

theorem expiryBatches_fulfilled : (expiryBatches deployment).Fulfilled where
  answers _ := trivial
  bodies request := by
    by_cases isTick : ∃ node, request = .tick node
    · obtain ⟨node, rfl⟩ := isTick
      exact (conforms_map _ _).mpr (permits_tick node)
    · refine conforms_of_forall _ (fun past call node isNode => ?_) fun _ _ => trivial
      exact absurd ⟨node, isNode⟩ isTick

end Batches

/-! ## Expired intents -/

section Expired

variable {deployment : Deployment}

/-- The batch of expired intents that a step brings to a tick. -/
def expiring (config : Config (service deployment)) :
    Label (service deployment) → List PaymentIntent
  | .resume thread choice =>
      match config.threads[thread]? with
      | some ⟨.tick _, .await (.query (.expiredIntents now take)) _⟩ =>
          (((Query.expiredIntents now take).answer choice.order config.state.store).getD []).map
            Prod.fst
      | _ => []
  | _ => []

instance (config : Config (service deployment)) (intent : PaymentIntent) :
    Decidable (PaidInTime config.state intent) :=
  decidablePaidInTime config.state intent

/-- No intent that is listed as expired has been paid in time. -/
def Vigilant (config : Config (service deployment)) (label : Label (service deployment)) : Prop :=
  ∀ intent ∈ expiring config label, ¬ PaidInTime config.state intent

instance (config : Config (service deployment)) (label : Label (service deployment)) :
    Decidable (Vigilant config label) :=
  inferInstanceAs (Decidable (∀ intent ∈ expiring config label, ¬ PaidInTime config.state intent))

/-- Runs in which no intent that is listed as expired has been paid in time. -/
abbrev VigilantRun : Config (service deployment) → Config (service deployment) → Prop :=
  Run Vigilant

variable {config config' : Config (service deployment)} {state : World}

/-- A batch that a tick reads consists of the intents that the step lists. -/
theorem Resumes.mem_expiring {allows : Config (service deployment) →
      Label (service deployment) → Prop} {thread now take node : Nat} {choice : Choice}
    {rows : List (PaymentIntent × String)} {row : PaymentIntent × String}
    (resumes : Resumes allows config config' thread choice (.tick node)
      ⟨.query (.expiredIntents now take), .ok rows⟩) (member : row ∈ rows) :
    row.1 ∈ expiring config (.resume thread choice) := by
  obtain ⟨resume, paused, -⟩ := resumes.paused
  obtain ⟨served, made, isAnswer, -⟩ := resumes.answered
  obtain ⟨-, rejected | ⟨answer, found, isGiven⟩⟩ := World.perform_query made
  · rw [rejected] at isAnswer
    cases isAnswer
  · rw [isGiven] at isAnswer
    obtain rfl : answer = rows := Except.ok.inj isAnswer
    simp only [expiring, paused, found, Option.getD_some]
    exact List.mem_map_of_mem member

/-- When a tick has read its batch, the intents in it are left unpaid for good. -/
theorem VigilantRun.leftUnpaid_of_listed (run : VigilantRun (.initial state) config)
    {thread node now take : Nat} {code : Promise Reply}
    (isTick : config.threads[thread]? = some ⟨.tick node, code⟩)
    {rows : List (PaymentIntent × String)} {row : PaymentIntent × String}
    (listed : ⟨.query (.expiredIntents now take), .ok rows⟩ ∈ config.past thread)
    (member : row ∈ rows) : LeftUnpaid row.1 config.state := by
  obtain ⟨before, after, choice, request, reached, resumes, later, code', lookup⟩ :=
    exists_resumes_of_mem run (mem_pastOf.mp listed)
  obtain rfl : .tick node = request :=
    congrArg Thread.request (Option.some.inj (isTick.symm.trans lookup))
  refine (leftUnpaid_stable row.1).run later ?_
  obtain ⟨same, -⟩ := resumes.performs.of_query
  rw [same]
  constructor
  · obtain ⟨resume, paused, -⟩ := resumes.paused
    have shown : ⟨.now, .ok now⟩ ∈ before.past thread :=
      reached.permitted expiryBatches_fulfilled paused node rfl now take rfl
    obtain ⟨start, started, _, _, -, clocked, onwards, -⟩ :=
      exists_resumes_of_mem reached (mem_pastOf.mp shown)
    have past : now ≤ before.state.clock := by
      refine (now_stable now).run onwards ?_
      rw [clocked.performs.of_now, clocked.performs.surroundings.2.2]
    obtain ⟨-, holds⟩ := resumes.performs.believable rows rfl
    obtain ⟨-, expiresAt, isExpiry, ended⟩ := holds row member
    exact ⟨expiresAt, isExpiry, by omega⟩
  · exact resumes.allowed _ (resumes.mem_expiring member)

def Request.isTick : Request → Bool
  | .tick _ => true
  | _ => false

/-- Only unpaid intents expire: in a run in which no intent that is listed as expired has
been paid in time, an intent that a tick sets to `EXPIRED` has not been paid in time. -/
theorem expired_unpaid (run : VigilantRun (.initial state) config) {thread : Nat}
    {ticking : Thread (service deployment)} (lookup : config.threads[thread]? = some ticking)
    (isTick : Request.isTick ticking.request = true)
    {choice : Choice} (step : step? config (.resume thread choice) = some config')
    {id : String} {row : PaymentIntent}
    (found : config'.state.store.find? .paymentIntent id = some row)
    (expired : row.status = .expired)
    (unexpired : ∀ old, config.state.store.find? .paymentIntent id = some old →
      old.status ≠ .expired) :
    ¬ PaidInTime config'.state row := by
  obtain ⟨request, call, resume, served, paused, performed, rfl⟩ := step?_resume step
  obtain rfl := Option.some.inj (lookup.symm.trans paused)
  obtain ⟨node, rfl⟩ : ∃ node, request = .tick node := by
    cases request with
    | tick node => exact ⟨node, rfl⟩
    | _ => cases isTick
  have resumes := @Resumes.of_resume _ (fun _ _ => True) _ _ _ _ _ _ _ trivial paused performed
  generalize config.advance thread (.tick node) call resume served = config' at *
  have permitted : permitsTransition (.tick node) (config.past thread) call :=
    run.permitted transitions_fulfilled paused
  have same := resumes.performs.surroundings
  cases resumes.performs.rows .paymentIntent with
  | kept same => exact absurd expired (unexpired row ((same id).symm.trans found))
  | created new drawn createdAt isCreate _ change =>
      obtain ⟨rfl, -⟩ := Performed.mk.inj isCreate
      exact permitted.elim
  | updated key patch old isUpdate change =>
      obtain ⟨rfl, -⟩ := Performed.mk.inj isUpdate
      rw [change.lookup] at found
      split at found
      · rename_i isId
        subst isId
        obtain rfl := Option.some.inj found
        cases permitted.2 with
        | succeeded intent hash payer current => cases expired
        | failed intent record hash => cases expired
        | expired now take rows listedRow clock listed member isRow =>
            subst isRow
            have left := run.leftUnpaid_of_listed paused listed member
            have read : HasRead (config.past thread) listedRow.1 :=
              ⟨_, listed, List.mem_map_of_mem member⟩
            have sameTerms := terms_of_read run read change.found
            intro paid
            have paidOld : PaidInTime config.state old :=
              (paid.of_ledger_eq same.1).of_terms_eq (terms_apply expiredPatch old)
            exact left.unpaid (paidOld.of_terms_eq sameTerms)
      · exact absurd expired (unexpired row found)
  | deleted key old isDelete change =>
      obtain ⟨rfl, -⟩ := Performed.mk.inj isDelete
      exact permitted.elim
  | cascaded key old isDelivery => cases isDelivery

/-- An intent that nobody pays, when a tick has listed it. -/
def unpaidIntent : Config (service Sample.deployment) :=
  after (fun config label => Vigilant config label)
    (Sample.create 0 "alice" "8" "c" "pi" ++ [.move (.pass 4000000), .issue (.tick 0)] ++
      Sample.serve 2 2 ++ [.resume 2 (.arrange ["pi"])])
    Sample.start

theorem expired_unpaid_of_unpaidIntent :
    ∃ config' row, step? unpaidIntent (.resume 2 .serve) = some config' ∧
      config'.state.store.find? .paymentIntent "pi" = some row ∧ row.status = .expired ∧
        ¬ PaidInTime config'.state row := by
  have isTick : (unpaidIntent.threads[2]?).map (fun ticking => Request.isTick ticking.request) =
      some true := by
    decide +kernel
  have isPending : (unpaidIntent.state.store.find? .paymentIntent "pi").map
      PaymentIntent.status = some .pending := by
    decide +kernel
  have isExpired : ((step? unpaidIntent (.resume 2 .serve)).bind fun config' =>
      (config'.state.store.find? .paymentIntent "pi").map PaymentIntent.status) =
        some .expired := by
    decide +kernel
  obtain ⟨ticking, lookup, ticks⟩ := Option.map_eq_some_iff.mp isTick
  obtain ⟨config', step, shown⟩ := Option.bind_eq_some_iff.mp isExpired
  obtain ⟨row, found, expired⟩ := Option.map_eq_some_iff.mp shown
  refine ⟨config', row, step, found, expired, ?_⟩
  refine expired_unpaid (run_after (fun _ _ checked => of_decide_eq_true checked) _ _) lookup ticks
    step found expired fun old oldFound => ?_
  have isOld : old.status = .pending :=
    Option.some.inj ((congrArg (Option.map PaymentIntent.status) oldFound).symm.trans isPending)
  rw [isOld]
  decide

/-- Ticks, and patches of a pending intent that report the transaction which has paid it. -/
def reporting (config : Config (service deployment)) : Label (service deployment) → Bool
  | .issue (.tick _) => true
  | .issue (.paymentIntents (.update _ id dto)) =>
      match dto.txHash, config.state.store.find? .paymentIntent id with
      | .value hash, some row =>
          dto.status = .value .submitted ∧ row.status = .pending ∧
            (config.state.ledger.find? (row.network, hash)).any fun tx => tx.Fulfils row
      | _, _ => false
  | .issue _ => false
  | _ => true

/-- An intent is paid and reported as submitted.  No tick looks for the payment, and one has
listed the intent as expired. -/
def reportedIntent : Config (service Sample.deployment) :=
  after (fun config label => reporting config label)
    ([.move (.land (Sample.payment '3' true 8 1000)),
      .issue (.paymentIntents (.update (Sample.caller "alice") "pi"
        ⟨.value .submitted, .value (Sample.hash '3'), .undefined⟩))] ++
      Sample.serve 0 3 ++ .issue (.tick 0) :: Sample.serve 2 5 ++
      [.move (.pass 4000000), .issue (.tick 0)] ++ Sample.serve 3 2 ++
      [.resume 3 (.arrange ["pi"])])
    (.initial (after (fun _ _ => true) (Sample.create 0 "alice" "8" "c" "pi") Sample.start).state)

/-- In general a tick expires intents that have been paid in time. -/
theorem not_expired_unpaid :
    ¬ ∀ (deployment : Deployment) (state : World) (config config' : Config (service deployment)),
      Run (fun config label => reporting config label = true) (.initial state) config →
      ∀ (thread : Nat) (ticking : Thread (service deployment)),
        config.threads[thread]? = some ticking → Request.isTick ticking.request = true →
        ∀ choice : Choice, step? config (.resume thread choice) = some config' →
        ∀ (id : String) (row : PaymentIntent),
          config'.state.store.find? .paymentIntent id = some row → row.status = .expired →
          (∀ old, config.state.store.find? .paymentIntent id = some old →
            old.status ≠ .expired) →
          ¬ PaidInTime config'.state row := by
  intro unpaid
  have isTick : (reportedIntent.threads[3]?).map (fun ticking => Request.isTick ticking.request) =
      some true := by
    decide +kernel
  have isSubmitted : (reportedIntent.state.store.find? .paymentIntent "pi").map
      PaymentIntent.status = some .submitted := by
    decide +kernel
  have isExpired : ((step? reportedIntent (.resume 3 .serve)).bind fun config' =>
      (config'.state.store.find? .paymentIntent "pi").map fun row =>
        (row.status, decide (PaidInTime config'.state row))) = some (.expired, true) := by
    decide +kernel
  obtain ⟨ticking, lookup, ticks⟩ := Option.map_eq_some_iff.mp isTick
  obtain ⟨config', step, shown⟩ := Option.bind_eq_some_iff.mp isExpired
  obtain ⟨row, found, isShown⟩ := Option.map_eq_some_iff.mp shown
  obtain ⟨expired, paid⟩ := Prod.mk.inj isShown
  refine unpaid Sample.deployment _ reportedIntent config'
    (run_after (fun _ _ checked => checked) _ _) 3 ticking lookup ticks .serve step "pi" row found
    expired (fun old oldFound => ?_) (of_decide_eq_true paid)
  have isOld : old.status = .submitted :=
    Option.some.inj ((congrArg (Option.map PaymentIntent.status) oldFound).symm.trans isSubmitted)
  rw [isOld]
  decide

end Expired

end CosmosPay
