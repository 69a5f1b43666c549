import CosmosPay.Awaiting.Execution
import CosmosPay.Chain

/-!
# Unrelated transactions

An intent may be validated with a transaction that is not addressed to it.  The verifier
looks at the outcome of the transaction before it looks at the memo, so a failed
transaction settles any intent: the memo guards the successful ones only.
-/

namespace CosmosPay

open Awaiting Program Tables PaymentIntents

/-! ## Calls without effect -/

/-- In this world the call only reads, or is a statement that is refused. -/
def Call.Idle (world : World) : Call → Prop
  | .query _ => True
  | .horizon _ => True
  | .write statement =>
      ∀ id, ∃ err, statement.execute world.store id world.clock = .error err
  | _ => False

/-- What an idle call may return. -/
def Call.Reads (world : World) : (call : Call) → call.Answer → Prop
  | .query asked, answer => ∃ order, asked.answer order world.store = some answer
  | .horizon lookup, answer => lookup.answer world = .ok answer
  | .write _, _ => False
  | _, _ => True

/-- Nothing is said about errors. -/
def Reads (world : World) (performed : Performed signature) : Prop :=
  ∀ answer, performed.answer = .ok answer → performed.call.Reads world answer

theorem Reads.failed {world : World} {call : Call} {err : ServiceError} :
    Reads world ⟨call, .error err⟩ := by
  rintro _ ⟨⟩

theorem Reads.answered {world : World} {call : Call} {answer : call.Answer}
    (reads : call.Reads world answer) : Reads world ⟨call, .ok answer⟩ := by
  intro given isGiven
  rwa [← Except.ok.inj isGiven]

theorem perform_idle {world : World} {call : Call} (idle : call.Idle world)
    {choice : Choice} {served : Served signature call World Request}
    (performed : World.perform call choice world = some served) :
    served.state = world ∧ Reads world ⟨call, served.answer⟩ := by
  cases call with
  | query asked =>
      obtain ⟨same, rejected | ⟨answer, found, answered⟩⟩ := World.perform_query performed
      · exact ⟨same, rejected ▸ .failed⟩
      · have reads : Call.Reads world (.query asked) answer := ⟨choice.order, found⟩
        exact ⟨same, answered ▸ .answered reads⟩
  | horizon lookup =>
      obtain ⟨same, rejected | answered⟩ := World.perform_horizon performed
      · exact ⟨same, rejected ▸ .failed⟩
      · exact ⟨same, fun answer given => answered.symm.trans given⟩
  | write statement =>
      rcases World.perform_write performed with rfl | ⟨id, -, rfl⟩
      · exact ⟨rfl, .failed⟩
      · obtain ⟨err, refused⟩ := idle id
        rw [refused]
        exact ⟨rfl, .failed⟩
  | _ => exact idle.elim

/-- A program whose calls are idle leaves the world as it is. -/
theorem execute_idle {α : Type} {deployment : Deployment} {program : Promise α} {world : World}
    (idle : program.Conforms (Reads world) (fun _ call => call.Idle world) (fun _ _ => True) [])
    {choices : List Choice} {execution : Execution (service deployment) α}
    (executed : program.execute (service deployment) choices world = some execution) :
    execution.state = world ∧ ∀ performed ∈ execution.past, performed.call.Idle world := by
  have keeps : ∀ {call : Call} {choice : Choice} {state : World}
      {served : Served signature call World Request}, state = world → call.Idle world →
      (service deployment).perform call choice state = some served →
      served.state = world ∧ Reads world ⟨call, served.answer⟩ := by
    rintro call choice state served rfl isIdle performed
    exact perform_idle isIdle performed
  obtain ⟨same, -, permitted⟩ :=
    idle.executed (fun unchanged isIdle => keeps unchanged isIdle) rfl executed
  refine ⟨same, fun performed member => ?_⟩
  obtain ⟨_, isIdle⟩ := permitted performed member
  exact isIdle

/-! ## Settling an intent as failed -/

/-- The transaction is not addressed to the intent. -/
def Transaction.Unrelated (tx : Transaction) (intent : PaymentIntent) : Prop :=
  tx.memo.type ≠ "id" ∨ tx.memo.render ≠ some intent.memo

/-- Another intent holds the hash. -/
def HashTaken (store : Store) (id txHash : String) : Prop :=
  txHash ≠ "" ∧ ∃ other ∈ store.intents.rows, other.id ≠ id ∧ other.txHash = some txHash

section Settling

variable {store : Store} {id txHash : String}

/-- The patch names the hash, unless it is empty. -/
theorem txHash_failedPatch (row : PaymentIntent) :
    PaymentIntent.txHash (Model.apply .paymentIntent (failedPatch txHash) row) =
      if txHash = "" then row.txHash else some txHash := by
  by_cases isEmpty : txHash = ""
  · subst isEmpty
    have absent : truthy (some "") = none := by decide
    simp [Model.apply, failedPatch, absent, Field.set]
  · have given : truthy (some txHash) = some txHash := by simp [truthy, isEmpty]
    simp [Model.apply, failedPatch, given, Field.set, isEmpty]

/-- The unique index refuses the hash of another intent. -/
theorem update_failedPatch_refused (taken : HashTaken store id txHash) :
    ∃ err, store.update .paymentIntent id (failedPatch txHash) = .error err := by
  obtain ⟨given, other, member, differ, isHash⟩ := taken
  cases updated : store.update .paymentIntent id (failedPatch txHash) with
  | error err => exact ⟨err, rfl⟩
  | ok result =>
      obtain ⟨row, store'⟩ := result
      obtain ⟨old, -, change⟩ := Store.update_eq_ok updated
      have free : intentIndexes.clash other
          (Model.apply .paymentIntent (failedPatch txHash) old) = false :=
        change.free other member differ
      simp [intentIndexes, txHash_failedPatch, given, isHash] at free

/-- A patch of an intent succeeds unless it names a hash that another intent holds. -/
theorem exists_update_intent {patch : PaymentIntentPatch} {intent : PaymentIntent}
    (stored : store.find? .paymentIntent id = some intent) (given : patch.status ≠ .null)
    (free : PaymentIntent.txHash (Model.apply .paymentIntent patch intent) = intent.txHash ∨
      ∀ other ∈ store.intents.rows, other.id ≠ id → other.txHash ≠ none →
        other.txHash ≠ PaymentIntent.txHash (Model.apply .paymentIntent patch intent)) :
    ∃ row store', store.update .paymentIntent id patch = .ok (row, store') := by
  cases updated : store.update .paymentIntent id patch with
  | ok result => exact ⟨result.1, result.2, rfl⟩
  | error err =>
      rcases Store.update_eq_error updated with nulls | absent | clashes
      · simp [Model.nullsRequired, given] at nulls
      · rw [stored] at absent
        cases absent
      · obtain ⟨old, found, other, member, differ, clash⟩ := clashes
        obtain rfl := Option.some.inj (stored.symm.trans found)
        -- what the patch does not change did not clash before
        have distinct : ¬ intentIndexes.clash other intent = true := by
          intro clashed
          rw [Table.eq_of_clash member (Table.mem_of_find? stored) clashed] at differ
          exact differ (Table.key_of_find? stored)
        simp only [Model.indexes, intentIndexes, decide_eq_true_eq, not_or] at clash distinct
        rcases clash with same | same | ⟨held, same⟩
        · exact absurd same distinct.1
        · exact absurd same distinct.2.1
        · rcases free with kept | free
          · rw [kept] at same
            exact absurd ⟨held, same⟩ distinct.2.2
          · exact absurd same (free other member differ held)

theorem exists_update_failedPatch {intent : PaymentIntent}
    (stored : store.find? .paymentIntent id = some intent) (free : ¬ HashTaken store id txHash) :
    ∃ row store', store.update .paymentIntent id (failedPatch txHash) = .ok (row, store') := by
  refine exists_update_intent stored (by simp [failedPatch]) ?_
  rw [txHash_failedPatch]
  by_cases isEmpty : txHash = ""
  · rw [if_pos isEmpty]
    exact .inl rfl
  · rw [if_neg isEmpty]
    exact .inr fun other member differ _ same => free ⟨isEmpty, other, member, differ, same⟩

end Settling

/-! ## Validating with an unrelated transaction -/

section Validation

variable {deployment : Deployment} {consumer : GatewayConsumer} {world : World}
variable {id txHash : String} {intent : PaymentIntent} {tx : Transaction}

/-- The verdict on an unrelated transaction: a failed one is reported as such whatever its
memo, a successful one has the wrong memo. -/
def ensuresUnrelated (tx : Transaction) (outcome : Except ServiceError VerificationResult) :
    Prop :=
  ∀ result, outcome = .ok result →
    result.valid = false ∧ (result.reason = some failedOnChain → tx.successful = false)

theorem ensuresUnrelated_ok {result : VerificationResult} (invalid : result.valid = false)
    (failed : result.reason = some failedOnChain → tx.successful = false) :
    ensuresUnrelated tx (.ok result) := by
  rintro _ ⟨⟩
  exact ⟨invalid, failed⟩

theorem ensuresUnrelated_error {err : ServiceError} : ensuresUnrelated tx (.error err) := by
  rintro _ ⟨⟩

theorem conforms_verifyByHash_unrelated
    (landed : world.ledger.find? (intent.network, txHash) = some tx)
    (unrelated : tx.Unrelated intent) (past : History signature) :
    (StellarVerifier.verifyByHash intent txHash).Conforms (Reads world)
      (fun _ call => call.Idle world) (fun _ => ensuresUnrelated tx) past := by
  unfold StellarVerifier.verifyByHash
  rw [conforms_bind]
  refine conforms_orNotFound trivial (fun record reads => ?_)
    (fun err => ensuresUnrelated_ok rfl fun isFailed =>
      absurd (Option.some.inj isFailed) (by decide)) fun err => ensuresUnrelated_error
  have answered : HorizonCall.answer (.transaction intent.network txHash) world = .ok record :=
    reads record rfl
  simp only [HorizonCall.answer, landed] at answered
  obtain rfl := Except.ok.inj answered
  refine (andThen_ok _ _).mpr ?_
  simp only
  split
  · rename_i unsuccessful
    exact ensuresUnrelated_ok rfl fun _ => by simpa [Transaction.record] using unsuccessful
  · split
    · rename_i reason mismatch
      refine ensuresUnrelated_ok rfl fun isFailed => ?_
      exact absurd (Option.some.inj isFailed) (memoMismatch_ne_failed mismatch)
    · rename_i matching
      obtain ⟨isId, rendered⟩ := memo_of_memoMatches matching
      exact absurd unrelated (by simp [Transaction.Unrelated, isId, rendered])

/-- Where a transaction that failed cannot be recorded, validation is idle. -/
theorem conforms_validate_unrelated
    (stored : world.store.find? .paymentIntent id = some intent)
    (unpaid : intent.status ≠ .succeeded)
    (landed : world.ledger.find? (intent.network, txHash) = some tx)
    (unrelated : tx.Unrelated intent)
    (guarded : tx.successful = true ∨ HashTaken world.store id txHash ∨
      world.store.belongsTo intent.consumerId consumer.username = false) :
    (validate deployment consumer id txHash).Conforms (Reads world)
      (fun _ call => call.Idle world) (fun _ _ => True) [] := by
  refine conforms_call_bind.mpr ⟨trivial, fun _ _ => trivial, fun found reads => ?_⟩
  obtain ⟨order, isFound⟩ := reads found rfl
  obtain rfl := Option.some.inj isFound
  have isIntent : world.store.intents.find? id = some intent := stored
  rw [isIntent]
  cases owned : world.store.belongsTo intent.consumerId consumer.username with
  | false =>
      simp only [Option.filter, owned]
      trivial
  | true =>
      have isId : intent.id = id := Table.key_of_find? stored
      simp only [Option.filter, owned, if_pos, if_neg unpaid]
      rw [conforms_bind]
      have verified := conforms_verifyByHash_unrelated landed unrelated
      refine Conforms.ensuring (verified _) fun past outcome said => ?_
      cases outcome with
      | error err => trivial
      | ok result =>
          obtain ⟨invalid, failed⟩ := said result rfl
          refine (andThen_ok _ _).mpr ?_
          unfold settle
          rw [if_neg (by simp [invalid])]
          split
          · rename_i isFailed
            -- the update that would record the failure is refused
            have taken : HashTaken world.store id txHash := by
              rcases guarded with successful | taken | foreign
              · simp [failed isFailed] at successful
              · exact taken
              · simp [owned] at foreign
            unfold markFailed
            rw [isId, conforms_bind]
            refine conforms_call_bind.mpr ⟨fun _ => update_failedPatch_refused taken,
              fun _ _ => trivial, fun row reads => (reads row rfl).elim⟩
          · trivial

/-- The intent's row is as it was, and no event has been emitted. -/
def Untouched (world : World) (id : String)
    (execution : Execution (service deployment) ValidationOutcome) : Prop :=
  (World.store execution.state).find? .paymentIntent id = world.store.find? .paymentIntent id ∧
    ∀ payload answer, ⟨.emit payload, answer⟩ ∉ execution.past

theorem untouched_of_idle
    (idle : (validate deployment consumer id txHash).Conforms (Reads world)
      (fun _ call => call.Idle world) (fun _ _ => True) [])
    {choices : List Choice} {execution : Execution (service deployment) ValidationOutcome}
    (executed : (validate deployment consumer id txHash).execute (service deployment) choices
      world = some execution) : Untouched world id execution := by
  obtain ⟨same, isIdle⟩ := execute_idle idle executed
  exact ⟨by rw [same], fun payload answer member => isIdle _ member⟩

theorem ends_verifyByHash_failed
    (landed : world.ledger.find? (intent.network, txHash) = some tx)
    (unsuccessful : tx.successful = false) (past : History signature) :
    Ends (service deployment) past world (StellarVerifier.verifyByHash intent txHash)
      (.ok { valid := false, reason := failedOnChain })
      (⟨.horizon (.transaction intent.network txHash), .ok tx.record⟩ :: past) world := by
  have answered : HorizonCall.answer (.transaction intent.network txHash) world =
      .ok tx.record := by
    simp only [HorizonCall.answer, landed]
  refine Ends.bind (((ends_call (perform_horizon_ok answered)).map some).tryCatch _) ?_
  simp only [Transaction.record, unsuccessful, Bool.not_false, if_true]
  exact ends_done _

theorem ends_markFailed {row : PaymentIntent} {store : Store}
    (updated : world.store.update .paymentIntent id (failedPatch txHash) = .ok (row, store))
    (past : History signature) :
    Ends (service deployment) past world (markFailed id consumer.username txHash) (.ok row)
      (⟨.emit ⟨consumer.username, .paymentIntentFailed, row⟩, .ok ()⟩ ::
        ⟨.write (.update .paymentIntent id (failedPatch txHash)), .ok row⟩ :: past)
      { world with store } := by
  have executed : Write.execute (.update .paymentIntent id (failedPatch txHash)) world.store ""
      world.clock = .ok (row, store) := updated
  exact Ends.bind (ends_call (perform_write_ok rfl executed))
    (Ends.bind (ends_call (perform_emit _)) (ends_done _))

/-- The QR code comes last, whether it can be drawn or not. -/
theorem exists_ends_withQr {α : Type} (intent : PaymentIntent) (present : PaymentIntentView → α) :
    ∃ outcome, ∀ past, Ends (service deployment) past world
      (withQr deployment intent >>= fun view => pure (present view)) outcome past world := by
  unfold withQr Promise.ofExcept
  cases deployment.libraries.toDataURL intent.uri with
  | error err => exact ⟨.error err, fun _ => ends_done _⟩
  | ok qr => exact ⟨.ok (present ⟨intent, qr⟩), fun _ => ends_done _⟩

theorem exists_ends_settle (deployment : Deployment) (consumer : GatewayConsumer)
    {row : PaymentIntent} {store : Store}
    (updated : world.store.update .paymentIntent intent.id (failedPatch txHash) =
      .ok (row, store)) :
    ∃ outcome, ∀ past, Ends (service deployment) past world
      (settle deployment consumer intent txHash { valid := false, reason := failedOnChain })
      outcome (⟨.emit ⟨consumer.username, .paymentIntentFailed, row⟩, .ok ()⟩ ::
        ⟨.write (.update .paymentIntent intent.id (failedPatch txHash)), .ok row⟩ :: past)
      { world with store } := by
  unfold settle
  simp only [Bool.false_eq_true, if_false, failedOnChain, if_true]
  obtain ⟨outcome, ends⟩ := exists_ends_withQr row _
  exact ⟨outcome, fun past => Ends.bind (ends_markFailed updated past) (ends _)⟩

/-- Otherwise the failure is recorded and announced. -/
theorem exists_touched (stored : world.store.find? .paymentIntent id = some intent)
    (unpaid : intent.status ≠ .succeeded)
    (landed : world.ledger.find? (intent.network, txHash) = some tx)
    (unsuccessful : tx.successful = false) (free : ¬ HashTaken world.store id txHash)
    (owned : world.store.belongsTo intent.consumerId consumer.username = true) :
    ∃ choices execution, (validate deployment consumer id txHash).execute (service deployment)
      choices world = some execution ∧ ¬ Untouched world id execution := by
  obtain ⟨row, store, updated⟩ := exists_update_failedPatch stored free
  have isId : intent.id = id := Table.key_of_find? stored
  have isIntent : world.store.intents.find? id = some intent := stored
  have answered : Query.answer (.intentOwned id consumer.username) [] world.store =
      some (some intent) := by
    simp [Query.answer, isIntent, owned, Option.filter]
  rw [← isId] at updated
  obtain ⟨outcome, settled⟩ := exists_ends_settle deployment consumer updated
  have validated : Ends (service deployment) [] world (validate deployment consumer id txHash)
      outcome [⟨.emit ⟨consumer.username, .paymentIntentFailed, row⟩, .ok ()⟩,
        ⟨.write (.update .paymentIntent intent.id (failedPatch txHash)), .ok row⟩,
        ⟨.horizon (.transaction intent.network txHash), .ok tx.record⟩,
        ⟨.query (.intentOwned id consumer.username), .ok (some intent)⟩]
      { world with store } := by
    refine Ends.bind (ends_call (perform_query_ok answered)) ?_
    simp only [if_neg unpaid]
    exact Ends.bind (ends_verifyByHash_failed landed unsuccessful _) (settled _)
  obtain ⟨choices, execution, executed, -, isPast⟩ := validated.executed
  refine ⟨choices, execution, executed, fun untouched => ?_⟩
  have silent := untouched.2 ⟨consumer.username, .paymentIntentFailed, row⟩ (.ok ())
  rw [isPast] at silent
  exact silent List.mem_cons_self

/-- Validating an unpaid intent with a transaction that is not addressed to it leaves the
intent's row as it is and emits no event, if and only if the transaction was successful, or
the update that records its failure is refused, or the intent is not the caller's. -/
theorem unrelated_untouched (stored : world.store.find? .paymentIntent id = some intent)
    (unpaid : intent.status ≠ .succeeded)
    (landed : world.ledger.find? (intent.network, txHash) = some tx)
    (unrelated : tx.Unrelated intent) :
    (∀ choices execution, (validate deployment consumer id txHash).execute (service deployment)
      choices world = some execution → Untouched world id execution) ↔
      (tx.successful = true ∨ HashTaken world.store id txHash ∨
        world.store.belongsTo intent.consumerId consumer.username = false) := by
  constructor
  · intro untouched
    by_contra unguarded
    simp only [not_or, Bool.not_eq_true, Bool.not_eq_false] at unguarded
    obtain ⟨unsuccessful, free, owned⟩ := unguarded
    obtain ⟨choices, execution, executed, touched⟩ :=
      exists_touched stored unpaid landed unsuccessful free owned
    exact touched (untouched choices execution executed)
  · intro guarded choices execution executed
    exact untouched_of_idle
      (conforms_validate_unrelated stored unpaid landed unrelated guarded) executed

end Validation

/-- The intent `pi` with the memo 8. -/
def eighth : Config (service Sample.deployment) :=
  after (fun _ _ => true) (Sample.create 0 "alice" "8" "c" "pi") Sample.start

theorem eighth_stored :
    ∃ intent, eighth.state.store.find? .paymentIntent "pi" = some intent ∧
      intent.status = .pending ∧ intent.memo = "8" ∧ intent.network = .testnet ∧
      intent.consumerId = "c" := by
  have shown : (eighth.state.store.find? .paymentIntent "pi").map (fun intent =>
      (intent.status, intent.memo, intent.network, intent.consumerId)) =
        some (.pending, "8", .testnet, "c") := by
    decide +kernel
  obtain ⟨intent, stored, columns⟩ := Option.map_eq_some_iff.mp shown
  simp only [Prod.mk.injEq] at columns
  exact ⟨intent, stored, columns⟩

/-- A payment with the memo 7 is not addressed to it. -/
theorem seventh_unrelated {intent : PaymentIntent} (isMemo : intent.memo = "8") (digit : Char)
    (successful : Bool) : (Sample.payment digit successful 7).Unrelated intent := by
  have differ : Memo.render (.id 7) ≠ some "8" := by decide +kernel
  rw [← isMemo] at differ
  exact .inr differ

theorem unrelated_untouched_of_successful :
    ∃ execution, (validate Sample.deployment (Sample.caller "alice") "pi"
        (Sample.hash '1')).execute (service Sample.deployment) [.serve, .serve] eighth.state =
          some execution ∧ Untouched eighth.state "pi" execution := by
  obtain ⟨intent, stored, isPending, isMemo, isNetwork, -⟩ := eighth_stored
  have unpaid : intent.status ≠ .succeeded := by simp [isPending]
  have landed : (World.ledger eighth.state).find? (intent.network, Sample.hash '1') =
      some (Sample.payment '1' true 7) := by
    rw [isNetwork]
    decide +kernel
  have executes : ((validate Sample.deployment (Sample.caller "alice") "pi"
      (Sample.hash '1')).execute (service Sample.deployment) [.serve, .serve]
        eighth.state).isSome = true := by
    decide +kernel
  obtain ⟨execution, executed⟩ := Option.isSome_iff_exists.mp executes
  exact ⟨execution, executed, (unrelated_untouched stored unpaid landed
    (seventh_unrelated isMemo '1' true)).mpr (.inl rfl) _ _ executed⟩

/-- A failed payment with the memo 7 settles the intent with the memo 8. -/
theorem not_unrelated_untouched :
    ¬ ∀ (deployment : Deployment) (state : World) (config : Config (service deployment)),
      state.store = .empty → Run (fun _ _ => True) (.initial state) config →
      ∀ (consumer : GatewayConsumer) (id txHash : String) (intent : PaymentIntent)
        (tx : Transaction), config.state.store.find? .paymentIntent id = some intent →
        intent.status ≠ .succeeded →
        config.state.ledger.find? (intent.network, txHash) = some tx → tx.Unrelated intent →
        ∀ choices execution, (validate deployment consumer id txHash).execute
          (service deployment) choices config.state = some execution →
          Untouched config.state id execution := by
  intro untouched
  obtain ⟨intent, stored, isPending, isMemo, isNetwork, isOwner⟩ := eighth_stored
  have unpaid : intent.status ≠ .succeeded := by simp [isPending]
  have landed : (World.ledger eighth.state).find? (intent.network, Sample.hash '2') =
      some (Sample.payment '2' false 7) := by
    rw [isNetwork]
    decide +kernel
  have free : ¬ HashTaken (World.store eighth.state) "pi" (Sample.hash '2') := by
    rintro ⟨-, other, member, differ, -⟩
    have only : (World.store eighth.state).intents.rows.all fun row => row.id = "pi" := by
      decide +kernel
    exact differ (by simpa using List.all_eq_true.mp only other member)
  have owned : (World.store eighth.state).belongsTo intent.consumerId
      (Sample.caller "alice").username = true := by
    rw [isOwner]
    decide +kernel
  have run : Run (fun _ _ => True) Sample.start eighth :=
    run_after (fun _ _ _ => trivial) _ _
  obtain ⟨choices, execution, executed, touched⟩ :=
    exists_touched stored unpaid landed rfl free owned
  exact touched (untouched Sample.deployment Sample.world eighth rfl run (Sample.caller "alice")
    "pi" (Sample.hash '2') intent _ stored unpaid landed (seventh_unrelated isMemo '2' false)
    choices execution executed)

end CosmosPay
