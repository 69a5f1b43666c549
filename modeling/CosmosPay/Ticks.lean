import CosmosPay.Awaiting.Batches
import CosmosPay.Awaiting.Evaluation
import CosmosPay.Answers
import CosmosPay.Contracts.Kinds
import CosmosPay.Reentrancy

/-!
# Ticks whose intents may fail

A tick works its two batches off one intent at a time.  Work that throws has changed and
announced nothing, so the other intents fare as if it had not been in the batch, and the
tick always ends with its flag released.
-/

namespace CosmosPay

open Awaiting Tables Program PaymentIntents

/-! ## The work on one intent -/

/-- No event is emitted. -/
def Quiet (past : History signature) : Prop :=
  ∀ performed ∈ past, ∀ payload, performed.call ≠ .emit payload

/-- Events are emitted about this intent only. -/
def About (id : String) (past : History signature) : Prop :=
  ∀ performed ∈ past, ∀ payload, performed.call = .emit payload → payload.data.id = id

section Work

variable {deployment : Deployment} {world : World} {choices : List Choice} {α : Type}

theorem execute_emit_bind {payload : WebhookEventPayload} {next : Unit → Promise α}
    {execution : Execution (service deployment) α}
    (executed : (Promise.call (.emit payload) >>= next).execute (service deployment) choices
      world = some execution) :
    ∃ rest second, (next ()).execute (service deployment) rest world = some second ∧
      execution = second.after [⟨.emit payload, .ok ()⟩] [.background (.handleEvent payload)] := by
  obtain ⟨choice, rest, served, rfl, performed, ended⟩ := execute_call_bind executed
  cases choice with
  | serve =>
      obtain rfl := Option.some.inj performed
      obtain ⟨second, continued, isExecution⟩ := ended
      exact ⟨rest, second, continued, isExecution⟩
  | _ => cases performed

theorem execute_start_bind {task : BackgroundTask} {next : Unit → Promise α}
    {execution : Execution (service deployment) α}
    (executed : (Promise.call (.start task) >>= next).execute (service deployment) choices
      world = some execution) :
    ∃ rest second, (next ()).execute (service deployment) rest world = some second ∧
      execution = second.after [⟨.start task, .ok ()⟩] [.background task] := by
  obtain ⟨choice, rest, served, rfl, performed, ended⟩ := execute_call_bind executed
  cases choice with
  | serve =>
      obtain rfl := Option.some.inj performed
      obtain ⟨second, continued, isExecution⟩ := ended
      exact ⟨rest, second, continued, isExecution⟩
  | _ => cases performed

/-- How the work on an intent has ended: it threw or had nothing to do, and left no trace, or
it patched the intent and announced it. -/
inductive Worked (id : String) (world : World) (execution : Execution (service deployment) α) :
    Prop
  | idle (same : execution.state = world) (spawned : execution.spawned = [])
      (quiet : Quiet execution.past)
  | marked (value : α) (store : Store) (patch : PaymentIntentPatch) (old : PaymentIntent)
      (returned : execution.outcome = .ok value)
      (changed : execution.state = { world with store })
      (change : Store.Updated world.store store .paymentIntent id patch old)
      (about : About id execution.past)

/-- A patch either fails without effect, or is followed by its announcement. -/
theorem worked_update {id : String} {patch : PaymentIntentPatch}
    {next : PaymentIntent → Promise α} {execution : Execution (service deployment) α}
    (announces : ∀ row world choices (execution : Execution (service deployment) α),
      (next row).execute (service deployment) choices world = some execution →
        ∃ value, execution.outcome = .ok value ∧ execution.state = world ∧
          About row.id execution.past)
    (executed : (Promise.write (.update .paymentIntent id patch) >>= next).execute
      (service deployment) choices world = some execution) :
    Worked id world execution := by
  obtain ⟨choice, rest, ⟨answer, after, spawned⟩, rfl, performed, ended⟩ :=
    execute_call_bind executed
  have written : World.perform (.write (.update .paymentIntent id patch)) choice world =
      some ⟨answer, after, spawned⟩ := performed
  rcases World.perform_write written with rejected | ⟨drawn, -, committed⟩
  · obtain ⟨rfl, rfl, rfl⟩ := Served.mk.inj rejected
    rw [ended]
    exact .idle rfl rfl (by simp [Quiet])
  rcases world.commit_cases (.update .paymentIntent id patch)
    (world.store.update .paymentIntent id patch) with
      ⟨err, -, failed⟩ | ⟨row, store, updated, succeeded⟩
  · obtain ⟨rfl, rfl, rfl⟩ := Served.mk.inj (committed.trans failed)
    rw [ended]
    exact .idle rfl rfl (by simp [Quiet])
  · obtain ⟨rfl, rfl, rfl⟩ := Served.mk.inj (committed.trans succeeded)
    obtain ⟨old, rfl, change⟩ := Store.update_eq_ok updated
    obtain ⟨second, continued, rfl⟩ := ended
    obtain ⟨value, returned, same, about⟩ := announces _ _ _ _ continued
    refine .marked value store patch old returned same change
      fun performed member payload emits => ?_
    rcases List.mem_append.mp member with later | first
    · rw [about performed later payload emits]
      exact (Model.key_apply .paymentIntent patch old).trans (Table.key_of_find? change.found)
    · obtain rfl := List.mem_singleton.mp first
      cases emits

theorem worked_markExpired {id username : String}
    {execution : Execution (service deployment) PaymentIntent}
    (executed : (markExpired id username).execute (service deployment) choices world =
      some execution) : Worked id world execution := by
  refine worked_update (fun updated world choices execution continued => ?_) executed
  obtain ⟨rest, second, returned, rfl⟩ := execute_emit_bind continued
  obtain rfl := Option.some.inj returned
  refine ⟨updated, rfl, rfl, fun performed member payload emits => ?_⟩
  obtain rfl := List.mem_singleton.mp member
  obtain rfl := Call.emit.inj emits
  rfl

/-- Reading first changes nothing about it. -/
theorem Worked.after {id : String} {execution : Execution (service deployment) α}
    (worked : Worked id world execution) {past : History signature} (quiet : Quiet past) :
    Worked id world (execution.after past []) := by
  cases worked with
  | idle same spawned silent =>
      refine .idle same (by simp [spawned]) fun performed member => ?_
      rcases List.mem_append.mp member with later | earlier
      · exact silent performed later
      · exact quiet performed earlier
  | marked value store patch old returned changed change about =>
      refine .marked value store patch old returned changed change
        fun performed member payload emits => ?_
      rcases List.mem_append.mp member with later | earlier
      · exact about performed later payload emits
      · exact absurd emits (quiet performed earlier payload)

/-- A call that looks something up. -/
def Call.Consults : Call → Prop
  | .query _ => True
  | .horizon _ => True
  | _ => False

omit deployment choices in
theorem Call.Consults.performed {call : Call} (reads : call.Consults) {choice : Choice}
    {served : Served signature call World Request}
    (performed : World.perform call choice world = some served) :
    served.state = world ∧ served.spawned = [] := by
  cases call with
  | query asked =>
      cases choice with
      | reject =>
          obtain rfl := Option.some.inj performed
          exact ⟨rfl, rfl⟩
      | _ =>
          obtain ⟨answer, -, rfl⟩ := Option.map_eq_some_iff.mp performed
          exact ⟨rfl, rfl⟩
  | horizon lookup =>
      cases choice with
      | reject | serve =>
          obtain rfl := Option.some.inj performed
          exact ⟨rfl, rfl⟩
      | _ => cases performed
  | _ => exact reads.elim

theorem worked_bind {β : Type} {id : String} {first : Promise β} {next : β → Promise α}
    {execution : Execution (service deployment) α} (reads : first.Calls Call.Consults)
    (works : ∀ value choices (execution : Execution (service deployment) α),
      (next value).execute (service deployment) choices world = some execution →
        Worked id world execution)
    (executed : (first >>= next).execute (service deployment) choices world = some execution) :
    Worked id world execution := by
  obtain ⟨⟨outcome, after, past, spawned, left⟩, isFirst, ended⟩ := execute_bind executed
  obtain ⟨same, nothing, kinds⟩ := reads.execute_reads
    (fun isRead performed => isRead.performed performed) isFirst
  have quiet : Quiet past := by
    intro performed member payload emits
    have isRead := kinds performed member
    rw [emits] at isRead
    exact isRead
  obtain rfl : after = world := same
  obtain rfl : spawned = [] := nothing
  cases outcome with
  | error err =>
      rw [ended]
      exact .idle rfl rfl quiet
  | ok value =>
      obtain ⟨second, continued, rfl⟩ := ended
      exact (works value left second continued).after quiet

theorem worked_markSucceeded {id username txHash : String} {payer : Option String}
    {execution : Execution (service deployment) PaymentIntent}
    (executed : (markSucceeded id username txHash payer).execute (service deployment) choices
      world = some execution) : Worked id world execution := by
  refine worked_bind (calls_call (by trivial)) (fun current choices execution asked => ?_) executed
  refine worked_update (fun updated world choices execution continued => ?_) asked
  obtain ⟨rest, emitted, started, rfl⟩ := execute_emit_bind continued
  obtain ⟨rest, second, returned, rfl⟩ := execute_start_bind started
  obtain rfl := Option.some.inj returned
  refine ⟨updated, rfl, rfl, fun performed member payload emits => ?_⟩
  rcases List.mem_cons.mp member with rfl | first
  · cases emits
  · obtain rfl := List.mem_singleton.mp first
    obtain rfl := Call.emit.inj emits
    rfl

/-- The row that is returned does not matter. -/
theorem worked_void {id : String} {program : Promise α}
    {execution : Execution (service deployment) Unit}
    (works : ∀ execution : Execution (service deployment) α,
      program.execute (service deployment) choices world = some execution →
        Worked id world execution)
    (executed : (program >>= fun _ => pure ()).execute (service deployment) choices world =
      some execution) : Worked id world execution := by
  obtain ⟨⟨outcome, after, past, spawned, left⟩, isFirst, ended⟩ := execute_bind executed
  have worked := works _ isFirst
  cases outcome with
  | error err =>
      rw [ended]
      cases worked with
      | idle same nothing quiet => exact .idle same nothing quiet
      | marked value store patch old returned => cases returned
  | ok value =>
      obtain ⟨second, returned, rfl⟩ := ended
      obtain rfl := Option.some.inj returned
      cases worked with
      | idle same nothing quiet => exact .idle same (by simpa using nothing) (by simpa using quiet)
      | marked value store patch old returned changed change about =>
          exact .marked () store patch old rfl changed change (by simpa using about)

/-- What `expire` does for one intent, before its errors are logged. -/
def expireBody (row : PaymentIntent × String) : Promise Unit := do
  let _ ← markExpired row.1.id row.2
  pure ()

theorem worked_expireBody (row : PaymentIntent × String)
    {execution : Execution (service deployment) Unit}
    (executed : (expireBody row).execute (service deployment) choices world = some execution) :
    Worked row.1.id world execution :=
  worked_void (fun _ => worked_markExpired) executed

theorem worked_reconcile (row : PaymentIntent × String)
    {execution : Execution (service deployment) Unit}
    (executed : (StellarObserver.reconcile row).execute (service deployment) choices world =
      some execution) : Worked row.1.id world execution := by
  obtain ⟨intent, owner⟩ := row
  have reads : (StellarObserver.verify intent).Calls Call.Consults :=
    (calls_verify intent).mono fun call isHorizon => by
      cases call with
      | horizon lookup => trivial
      | _ => exact isHorizon.elim
  refine worked_bind reads (fun result choices execution decided => ?_) executed
  split at decided
  · exact worked_void (fun _ => worked_markSucceeded) decided
  · obtain rfl := Option.some.inj decided
    exact .idle rfl rfl (by simp [Quiet])

end Work

/-! ## One pass -/

/-- The attempts that did not throw. -/
def Attempt.succeeded {deployment : Deployment}
    (attempts : List (Attempt (service deployment) (PaymentIntent × String))) :
    List (Attempt (service deployment) (PaymentIntent × String)) :=
  attempts.filter fun attempt => !attempt.failed

/-- What a pass over a batch keeps to, whatever its attempts throw. -/
structure Contained (deployment : Deployment) (body : PaymentIntent × String → Promise Unit)
    (batch : List (PaymentIntent × String)) (before after : World)
    (attempts : List (Attempt (service deployment) (PaymentIntent × String))) : Prop where
  worked : Awaiting.Batch (service deployment) body batch before attempts after
  attempted : attempts.map Attempt.item = batch
  unchanged : ∀ attempt ∈ attempts, attempt.failed = true →
    after.store.find? .paymentIntent attempt.item.1.id =
      before.store.find? .paymentIntent attempt.item.1.id
  silent : ∀ attempt ∈ attempts, attempt.failed = true →
    ∀ performed ∈ Attempt.allCalls attempts, ∀ payload, performed.call = .emit payload →
      payload.data.id ≠ attempt.item.1.id
  independent : ∀ rest,
    (((Attempt.succeeded attempts).map Attempt.item).forM fun row => caught (body row)).execute
      (service deployment) (Attempt.allChoices (Attempt.succeeded attempts) ++ rest) before =
        some ⟨.ok (), after, Attempt.allCalls (Attempt.succeeded attempts),
          Attempt.allSpawned attempts, rest⟩

section Pass

variable {deployment : Deployment} {body : PaymentIntent × String → Promise Unit}
variable {batch : List (PaymentIntent × String)} {before after : World}
variable {attempts : List (Attempt (service deployment) (PaymentIntent × String))}

theorem Worked.of_failed {id : String}
    {attempt : Attempt (service deployment) (PaymentIntent × String)}
    (worked : Worked id attempt.before attempt.execution) (failed : attempt.failed = true) :
    attempt.execution.state = attempt.before ∧ attempt.execution.spawned = [] ∧
      Quiet attempt.execution.past := by
  cases worked with
  | idle same spawned quiet => exact ⟨same, spawned, quiet⟩
  | marked value store patch old returned => simp [Attempt.failed, returned] at failed

theorem contained_of_batch
    (works : ∀ row world choices (execution : Execution (service deployment) Unit),
      (body row).execute (service deployment) choices world = some execution →
        Worked row.1.id world execution)
    (distinct : (batchIds batch).Nodup)
    (worked : Awaiting.Batch (service deployment) body batch before attempts after) :
    Contained deployment body batch before after attempts := by
  have attempted := worked.attempted
  have effects : ∀ attempt ∈ attempts,
      Worked attempt.item.1.id attempt.before attempt.execution :=
    fun attempt member => works _ _ _ _ (worked.executed member)
  -- no two attempts are about one intent
  have single : ∀ first ∈ attempts, ∀ second ∈ attempts,
      first.item.1.id = second.item.1.id → first = second := by
    have ids : batchIds batch = attempts.map fun attempt => attempt.item.1.id := by
      rw [← attempted, batchIds, List.map_map]
      rfl
    rw [ids] at distinct
    exact fun first isFirst second isSecond same =>
      List.inj_on_of_nodup_map distinct isFirst isSecond same
  refine ⟨worked, attempted, fun attempt member failed => ?_,
    fun attempt member failed performed called payload emits same => ?_, fun rest => ?_⟩
  · refine worked.invariant
      (fun world => world.store.find? .paymentIntent attempt.item.1.id =
        before.store.find? .paymentIntent attempt.item.1.id) (fun other isOther kept => ?_) rfl
    cases effects other isOther with
    | idle same spawned quiet => rwa [same]
    | marked value store patch old returned changed change about =>
        have differ : other.item.1.id ≠ attempt.item.1.id := by
          intro same
          rw [single other isOther attempt member same] at returned
          simp [Attempt.failed, returned] at failed
        have lookup := change.lookup attempt.item.1.id
        rw [if_neg differ] at lookup
        rw [changed, ← kept]
        exact lookup
  · obtain ⟨other, isOther, made⟩ := List.mem_flatMap.mp called
    have isAttempt := List.mem_reverse.mp isOther
    cases effects other isAttempt with
    | idle unchanged spawned quiet => exact quiet performed made payload emits
    | marked value store patch old returned changed change about =>
        have isSame := (about performed made payload emits).symm.trans same
        rw [single other isAttempt attempt member isSame] at returned
        simp [Attempt.failed, returned] at failed
  · have harmless := fun attempt member failed => (effects attempt member).of_failed failed
    have reduced := worked.without_failed fun attempt member failed =>
      (harmless attempt member failed).1
    have started := Awaiting.Batch.allSpawned_without_failed fun attempt member failed =>
      (harmless attempt member failed).2.1
    rw [← started]
    exact reduced.execute rest

end Pass

/-! ## The tick -/

/-- The passes of a tick: one of the two batch queries fails and ends them, or both batches are
worked off. -/
inductive Passes (deployment : Deployment) (now : Nat) (before : World) :
    World → History signature → List Request → Prop
  | expiryRefused (err : ServiceError) :
      Passes deployment now before before
        [⟨.query (.expiredIntents now deployment.config.batchSize), .error err⟩] []
  | pendingRefused {expired : List (PaymentIntent × String)} {middle : World}
      {attempts : List (Attempt (service deployment) (PaymentIntent × String))}
      (expiry : Contained deployment expireBody expired before middle attempts)
      (err : ServiceError) :
      Passes deployment now before middle
        (⟨.query (.pendingIntents deployment.config.batchSize), .error err⟩ ::
          (Attempt.allCalls attempts ++
            [⟨.query (.expiredIntents now deployment.config.batchSize), .ok expired⟩]))
        (Attempt.allSpawned attempts)
  | completed {expired pending : List (PaymentIntent × String)} {middle after : World}
      {attempts attempts' : List (Attempt (service deployment) (PaymentIntent × String))}
      (expiry : Contained deployment expireBody expired before middle attempts)
      (reconciliation : Contained deployment StellarObserver.reconcile pending middle after
        attempts') :
      Passes deployment now before after
        (Attempt.allCalls attempts' ++
          ⟨.query (.pendingIntents deployment.config.batchSize), .ok pending⟩ ::
          (Attempt.allCalls attempts ++
            [⟨.query (.expiredIntents now deployment.config.batchSize), .ok expired⟩]))
        (Attempt.allSpawned attempts ++ Attempt.allSpawned attempts')

section Tick

variable {deployment : Deployment} {node : Nat} {world : World} {choices : List Choice}
variable {execution : Execution (service deployment) Unit}

/-- A pass whose query has been answered, or refused. -/
theorem execute_pass {asked : Query} {listing : asked.Answer → List (PaymentIntent × String)}
    {body : PaymentIntent × String → Promise Unit}
    (works : ∀ row world choices (execution : Execution (service deployment) Unit),
      (body row).execute (service deployment) choices world = some execution →
        Worked row.1.id world execution)
    (lists : ∀ order listed, asked.answer order world.store = some listed →
      (batchIds (listing listed)).Nodup)
    (executed : (Promise.query asked >>= fun listed =>
      (listing listed).forM fun row => caught (body row)).execute (service deployment) choices
        world = some execution) :
    (∃ err, execution.outcome = .error err ∧ execution.state = world ∧
      execution.spawned = [] ∧ execution.past = [⟨.query asked, .error err⟩]) ∨
    ∃ listed attempts, execution.outcome = .ok () ∧
      Contained deployment body (listing listed) world execution.state attempts ∧
      execution.spawned = Attempt.allSpawned attempts ∧
      execution.past = Attempt.allCalls attempts ++ [⟨.query asked, .ok listed⟩] := by
  obtain ⟨choice, rest, ⟨answer, after, spawned⟩, rfl, performed, ended⟩ :=
    Awaiting.Batch.of_pass executed
  have isQuery : Call.Consults (.query asked) := trivial
  obtain ⟨same, nothing⟩ := isQuery.performed performed
  obtain rfl : after = world := same
  obtain rfl : spawned = [] := nothing
  rcases ended with ⟨err, rfl, rfl⟩ | ⟨listed, attempts, rfl, batch, outcome, past, started⟩
  · exact .inl ⟨err, rfl, rfl, rfl, rfl⟩
  · refine .inr ⟨listed, attempts, outcome, contained_of_batch works ?_ batch, started, past⟩
    obtain ⟨-, rejected | ⟨given, found, isGiven⟩⟩ := World.perform_query performed
    · cases rejected
    · obtain rfl := Except.ok.inj isGiven
      exact lists choice.order listed found

theorem lists_expired {now take : Nat} {order : List String} {store : Store}
    {expired : List (PaymentIntent × String)}
    (answered : (Query.expiredIntents now take).answer order store = some expired) :
    (batchIds expired).Nodup := by
  obtain ⟨arranged, isArranged, rfl⟩ := Option.map_eq_some_iff.mp answered
  exact (batch_of_arranged take isArranged).1

theorem lists_pending {take : Nat} {order : List String} {store : Store}
    {pending : List (PaymentIntent × String)}
    (answered : (Query.pendingIntents take).answer order store = some pending) :
    (batchIds pending).Nodup := by
  obtain ⟨arranged, isArranged, rfl⟩ := Option.map_eq_some_iff.mp answered
  exact (batch_of_arranged take (Option.filter_eq_some_iff.mp isArranged).1).1

theorem expire_eq_caught : StellarObserver.expire = fun row => caught (expireBody row) :=
  funext fun _ => rfl

/-- What the two passes of a tick do, up to the error that ends them. -/
theorem execute_passes
    (executed : (StellarObserver.expiryPass deployment >>= fun _ =>
      StellarObserver.reconcilePass deployment).execute (service deployment) choices world =
        some execution) :
    ∃ past, execution.past = past ++ [⟨.now, .ok world.clock⟩] ∧
      Passes deployment world.clock world execution.state past execution.spawned := by
  obtain ⟨expiry, isExpiry, ended⟩ := execute_bind executed
  obtain ⟨clock, rest, served, rfl, performed, asked⟩ := execute_call_bind isExpiry
  have told : World.perform .now clock world = some served := performed
  obtain rfl := World.perform_now told
  obtain ⟨first, passed, rfl⟩ := asked
  rw [expire_eq_caught] at passed
  rcases execute_pass (fun row _ _ _ => worked_expireBody row) (fun _ _ => lists_expired) passed
    with ⟨err, outcome, same, nothing, past⟩ |
      ⟨expired, attempts, outcome, contained, started, past⟩
  · simp only [Execution.after_outcome, outcome] at ended
    rw [ended]
    refine ⟨_, congrArg (· ++ _) past, ?_⟩
    simp only [Execution.after_state, Execution.after_spawned, same, nothing]
    exact .expiryRefused err
  · simp only [Execution.after_outcome, outcome] at ended
    obtain ⟨second, reconciled, rfl⟩ := ended
    rcases execute_pass (fun row _ _ _ => worked_reconcile row) (fun _ _ => lists_pending)
      reconciled with ⟨err, -, same, nothing, past'⟩ |
        ⟨pending, attempts', -, contained', started', past'⟩
    · refine ⟨second.past ++ first.past, (List.append_assoc _ _ _).symm, ?_⟩
      simp only [Execution.after_state, Execution.after_spawned, same, nothing, past, past',
        started, List.append_nil]
      exact .pendingRefused contained err
    · refine ⟨second.past ++ first.past, (List.append_assoc _ _ _).symm, ?_⟩
      simp only [Execution.after_state, Execution.after_spawned, past, past', started, started',
        List.append_assoc]
      exact .completed contained contained'

/-- The work on an intent changes the database only. -/
theorem Contained.surroundings {body : PaymentIntent × String → Promise Unit}
    {batch : List (PaymentIntent × String)} {before after : World}
    {attempts : List (Attempt (service deployment) (PaymentIntent × String))}
    (works : ∀ row world choices (execution : Execution (service deployment) Unit),
      (body row).execute (service deployment) choices world = some execution →
        Worked row.1.id world execution)
    (contained : Contained deployment body batch before after attempts) :
    after.running = before.running := by
  refine contained.worked.invariant (fun world => world.running = before.running)
    (fun attempt member kept => ?_) rfl
  cases works _ _ _ _ (contained.worked.executed member) with
  | idle same => rwa [same]
  | marked value store patch old returned changed =>
      rw [changed]
      exact kept

theorem Passes.running {now : Nat} {before after : World} {past : History signature}
    {spawned : List Request} (passes : Passes deployment now before after past spawned) :
    after.running = before.running := by
  cases passes with
  | expiryRefused err => rfl
  | pendingRefused expiry err => exact expiry.surroundings fun row _ _ _ => worked_expireBody row
  | completed expiry reconciliation =>
      rw [reconciliation.surroundings fun row _ _ _ => worked_reconcile row]
      exact expiry.surroundings fun row _ _ _ => worked_expireBody row

/-- A tick of an instance whose flag is taken asks for nothing else. -/
theorem execute_tick_of_running (taken : node ∈ world.running)
    (executed : (StellarObserver.tick deployment node).execute (service deployment) choices world =
      some execution) :
    execution.outcome = .ok () ∧ execution.state = world ∧
      execution.past = [⟨.enterTick node, .ok false⟩] ∧ execution.spawned = [] := by
  obtain ⟨choice, rest, served, rfl, performed, ended⟩ := execute_call_bind executed
  cases choice with
  | serve =>
      have entered : World.perform (.enterTick node) .serve world = some served := performed
      simp only [World.perform, if_pos taken] at entered
      obtain rfl := Option.some.inj entered
      obtain ⟨second, returned, rfl⟩ := ended
      obtain rfl := Option.some.inj returned
      exact ⟨rfl, rfl, rfl, rfl⟩
  | _ => cases performed

/-- A tick of an instance whose flag is free makes its passes and releases the flag. -/
theorem execute_tick_of_free (free : node ∉ world.running)
    (executed : (StellarObserver.tick deployment node).execute (service deployment) choices world =
      some execution) :
    execution.outcome = .ok () ∧ node ∉ execution.state.running ∧
      ∃ final past, Passes deployment world.clock { world with running := node :: world.running }
          final past execution.spawned ∧
        execution.state = { final with running := world.running } ∧
        execution.past = ⟨.leaveTick node, .ok ()⟩ ::
          (past ++ [⟨.now, .ok world.clock⟩, ⟨.enterTick node, .ok true⟩]) := by
  obtain ⟨choice, rest, served, rfl, performed, ended⟩ := execute_call_bind executed
  cases choice with
  | serve =>
      have entered : World.perform (.enterTick node) .serve world = some served := performed
      simp only [World.perform, if_neg free] at entered
      obtain rfl := Option.some.inj entered
      obtain ⟨second, guarded, rfl⟩ := ended
      obtain ⟨first, isFirst, ended⟩ := execute_bind guarded
      obtain ⟨cycle, isCycle, rfl⟩ := execute_caught isFirst
      obtain ⟨past, isPast, passes⟩ := execute_passes isCycle
      obtain ⟨last, left, rfl⟩ := ended
      obtain ⟨choice, rest, served, later, isRest, released, returned, rfl⟩ := execute_await left
      cases choice with
      | serve =>
          obtain rfl := Option.some.inj released
          obtain rfl := Option.some.inj returned
          have released : (World.running cycle.state).filter (· ≠ node) = world.running := by
            rw [passes.running, List.filter_cons_of_neg (by simp), List.filter_eq_self]
            intro other member
            have differ : other ≠ node := fun same => free (same ▸ member)
            simpa using differ
          refine ⟨rfl, ?_, cycle.state, past, ?_, ?_, ?_⟩
          · change node ∉ (World.running cycle.state).filter (· ≠ node)
            simp
          · have spawned := List.append_nil cycle.spawned
            exact (congrArg (Passes deployment world.clock
              { world with running := node :: world.running } cycle.state past) spawned).mpr passes
          · change { cycle.state with running := (World.running cycle.state).filter (· ≠ node) } = _
            rw [released]
          · change [⟨.leaveTick node, .ok ()⟩] ++ cycle.past ++ [⟨.enterTick node, .ok true⟩] = _
            rw [isPast]
            simp
      | _ => cases released
  | _ => cases performed

end Tick

/-- Whatever fails in a tick, its flag is free in the end, the other intents fare as if the
failing ones had not been there, and no other tick gets in between. -/
theorem tick_contains_failures (deployment : Deployment) (node : Nat) :
    (∀ world, ∃ choices execution, (StellarObserver.tick deployment node).execute
      (service deployment) choices world = some execution) ∧
    (∀ world choices execution, (StellarObserver.tick deployment node).execute
      (service deployment) choices world = some execution → node ∉ world.running →
        execution.outcome = .ok () ∧ node ∉ execution.state.running ∧
          ∃ final past, Passes deployment world.clock
              { world with running := node :: world.running } final past execution.spawned ∧
            execution.state = { final with running := world.running } ∧
            execution.past = ⟨.leaveTick node, .ok ()⟩ ::
              (past ++ [⟨.now, .ok world.clock⟩, ⟨.enterTick node, .ok true⟩])) ∧
    (∀ world choices execution, (StellarObserver.tick deployment node).execute
      (service deployment) choices world = some execution → node ∈ world.running →
        execution.outcome = .ok () ∧ execution.state = world ∧
          execution.past = [⟨.enterTick node, .ok false⟩] ∧ execution.spawned = []) ∧
    ∀ allows (state : World) (config : Config (service deployment)), state.running = [] →
      Run allows (.initial state) config →
        (node ∈ config.state.running ↔ ∃ thread, Inside node (config.past thread)) ∧
        ∀ config' thread choice performed,
          Resumes allows config config' thread choice (.tick node) performed →
          config.past thread = [] → (∃ other, Inside node (config.past other)) →
            config'.state = config.state ∧
              config'.past thread = [⟨.enterTick node, .ok false⟩] ∧
              config'.finished thread = true :=
  ⟨exists_execute deployment _, fun _ _ _ executed free => execute_tick_of_free free executed,
    fun _ _ _ executed taken => execute_tick_of_running taken executed,
    fun _ _ _ free run => ⟨(flagged_run free run).taken node,
      fun _ _ _ _ resumes first ⟨_, held⟩ => refused_of_inside free run resumes first held⟩⟩

/-- The query for the expired intents is refused, and the flag is released all the same. -/
theorem tick_contains_failures_of_refusal :
    ∃ execution, (StellarObserver.tick Sample.deployment 0).execute (service Sample.deployment)
        [Choice.serve, Choice.serve, Choice.reject, Choice.serve] Sample.world = some execution ∧
      execution.outcome = .ok () ∧ 0 ∉ execution.state.running := by
  have ended := (tick_contains_failures Sample.deployment 0).2.1 Sample.world
    [Choice.serve, Choice.serve, Choice.reject, Choice.serve] _ rfl (by decide)
  exact ⟨_, rfl, ended.1, ended.2.1⟩

end CosmosPay
