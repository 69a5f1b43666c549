import CosmosPay.Service

/-!
# What a step changes

Inversion lemmas for the calls: which rows a statement changes and how, and what
the other calls leave alone.  Every invariant of the development is derived from
these.
-/

namespace CosmosPay

open Awaiting Tables

/-- How a performed call changes the rows of one model. -/
inductive RowsStep (model : Model) (before after : Store) (performed : Performed signature) :
    Prop where
  | kept (same : ∀ key, after.find? model key = before.find? model key)
  | created (new : model.New) (id : String) (createdAt : Nat)
      (isCreate : performed =
        ⟨.write (.create model new), .ok (model.make new id createdAt)⟩)
      (fresh : id ∉ before.issued)
      (change : Store.Created before after model new id createdAt)
  | updated (id : String) (patch : model.Patch) (old : model.Row)
      (isUpdate : performed = ⟨.write (.update model id patch), .ok (model.apply patch old)⟩)
      (change : Store.Updated before after model id patch old)
  | deleted (id : String) (old : model.Row)
      (isDelete : performed = ⟨.write (.delete model id), .ok old⟩)
      (change : Store.Deleted before after model id old)
  | cascaded (id : String) (old : WebhookEndpoint) (isDelivery : model = .webhookDelivery)
      (isDelete : performed = ⟨.write (.delete .webhookEndpoint id), .ok old⟩)
      (change : Store.Deleted before after .webhookEndpoint id old)

/-- The call can be answered this way, and takes the world from `before` to
`after`. -/
def Performs (before after : World) (performed : Performed signature) : Prop :=
  ∃ choice served, World.perform performed.call choice before = some served ∧
    served.answer = performed.answer ∧ served.state = after

/-- The requests that a call hands over to be served. -/
def Call.spawns : Call → List Request
  | .emit payload => [.background (.handleEvent payload)]
  | .start task => [.background task]
  | _ => []

namespace World

/-- A statement is rejected without effect, or executed with a fresh id. -/
theorem perform_write {statement : Write} {choice : Choice} {world : World}
    {served : Served signature (.write statement) World Request}
    (performed : perform (.write statement) choice world = some served) :
    served = world.reply (.error disconnected) ∨
      ∃ id, (statement.draws = true → id ∉ world.store.issued) ∧
        served = world.commit statement (statement.execute world.store id world.clock) := by
  cases choice with
  | reject => exact .inl (Option.some.inj performed).symm
  | draw id =>
      simp only [perform, Option.ite_none_right_eq_some, Option.some.injEq] at performed
      exact .inr ⟨id, fun _ => performed.1.2, performed.2.symm⟩
  | serve =>
      simp only [perform, Option.ite_none_left_eq_some, Option.some.injEq] at performed
      exact .inr ⟨"", fun draws => absurd draws performed.1, performed.2.symm⟩
  | arrange order => cases performed
  | bytes drawn => cases performed
  | respond status => cases performed

/-- A query reads. -/
theorem perform_query {asked : Query} {choice : Choice} {world : World}
    {served : Served signature (.query asked) World Request}
    (performed : perform (.query asked) choice world = some served) :
    served.state = world ∧ (served.answer = .error disconnected ∨
      ∃ answer, asked.answer choice.order world.store = some answer ∧
        served.answer = .ok answer) := by
  by_cases rejected : choice = .reject
  · subst rejected
    obtain rfl := Option.some.inj performed
    exact ⟨rfl, .inl rfl⟩
  · have answered : perform (.query asked) choice world =
        (asked.answer choice.order world.store).map fun answer =>
          world.reply (.ok answer) := by
      cases choice <;> first | rfl | exact absurd rfl rejected
    rw [answered] at performed
    obtain ⟨answer, found, rfl⟩ := Option.map_eq_some_iff.mp performed
    exact ⟨rfl, .inr ⟨answer, found, rfl⟩⟩

/-- Horizon answers from the ledger, or not at all. -/
theorem perform_horizon {lookup : HorizonCall} {choice : Choice} {world : World}
    {served : Served signature (.horizon lookup) World Request}
    (performed : perform (.horizon lookup) choice world = some served) :
    served.state = world ∧
      (served.answer = .error (.horizon none) ∨ served.answer = lookup.answer world) := by
  cases choice with
  | reject =>
      obtain rfl := Option.some.inj performed
      exact ⟨rfl, .inl rfl⟩
  | serve =>
      obtain rfl := Option.some.inj performed
      exact ⟨rfl, .inr rfl⟩
  | draw id => cases performed
  | arrange order => cases performed
  | bytes drawn => cases performed
  | respond status => cases performed

theorem perform_now {choice : Choice} {world : World}
    {served : Served signature .now World Request}
    (performed : perform .now choice world = some served) :
    served = world.reply (.ok world.clock) := by
  cases choice <;> first | exact (Option.some.inj performed).symm | cases performed

/-- Calls other than statements change nothing but the `running` flags. -/
theorem perform_running {call : Call} {choice : Choice} {world : World}
    {served : Served signature call World Request}
    (performed : perform call choice world = some served)
    (notWrite : ∀ statement, call ≠ .write statement) :
    ∃ running, served.state = { world with running } := by
  cases call with
  | write statement => exact absurd rfl (notWrite statement)
  | query asked => exact ⟨world.running, (perform_query performed).1⟩
  | horizon lookup => exact ⟨world.running, (perform_horizon performed).1⟩
  | now => exact ⟨world.running, by rw [perform_now performed]; rfl⟩
  | randomBytes size =>
      cases choice with
      | bytes drawn =>
          simp only [perform, Option.ite_none_right_eq_some, Option.some.injEq] at performed
          exact ⟨world.running, by rw [← performed.2]; rfl⟩
      | _ => cases performed
  | enterTick node =>
      cases choice with
      | serve =>
          simp only [perform] at performed
          split at performed <;> cases performed <;> exact ⟨_, rfl⟩
      | _ => cases performed
  | _ => cases choice <;> cases performed <;> exact ⟨_, rfl⟩

/-- An event and a detached task are served by a request of their own. -/
theorem perform_spawns {call : Call} {choice : Choice} {world : World}
    {served : Served signature call World Request}
    (performed : perform call choice world = some served) : served.spawned = call.spawns := by
  cases call with
  | write statement =>
      rcases perform_write performed with rfl | ⟨id, -, rfl⟩
      · rfl
      · unfold commit
        split <;> rfl
  | query asked =>
      cases choice with
      | reject => cases performed; rfl
      | _ =>
          obtain ⟨answer, -, rfl⟩ := Option.map_eq_some_iff.mp performed
          rfl
  | randomBytes size =>
      cases choice with
      | bytes drawn =>
          simp only [perform, Option.ite_none_right_eq_some, Option.some.injEq] at performed
          rw [← performed.2]
          rfl
      | _ => cases performed
  | enterTick node =>
      cases choice with
      | serve =>
          simp only [perform] at performed
          split at performed <;> cases performed <;> rfl
      | _ => cases performed
  | _ => cases choice <;> cases performed <;> rfl

/-- Only detached tasks are spawned. -/
theorem perform_spawned {call : Call} {choice : Choice} {world : World}
    {served : Served signature call World Request}
    (performed : perform call choice world = some served) :
    ∀ request ∈ served.spawned, ∃ task, request = .background task := by
  rw [perform_spawns performed]
  intro request member
  cases call with
  | emit payload => exact ⟨_, List.mem_singleton.mp member⟩
  | start task => exact ⟨_, List.mem_singleton.mp member⟩
  | _ => cases member

/-- A statement either fails and changes nothing, or returns what it executed. -/
theorem commit_cases (world : World) (statement : Write)
    (executed : Except ServiceError (statement.Answer × Store)) :
    (∃ err, executed = .error err ∧
      world.commit statement executed = world.reply (.error err)) ∨
      ∃ answer store, executed = .ok (answer, store) ∧
        world.commit statement executed = ⟨.ok answer, { world with store }, []⟩ := by
  cases executed with
  | error err => exact .inl ⟨err, rfl, rfl⟩
  | ok result => exact .inr ⟨result.1, result.2, rfl, rfl⟩

end World

namespace Performs

variable {before after : World} {performed : Performed signature}

theorem of_perform {call : Call} {choice : Choice}
    {served : Served signature call World Request}
    (performed : World.perform call choice before = some served) :
    Performs before served.state ⟨call, served.answer⟩ :=
  ⟨choice, served, performed, rfl, rfl⟩

/-- A performed statement either failed without effect or executed. -/
theorem of_write {statement : Write} {answer : Except ServiceError statement.Answer}
    (performs : Performs before after ⟨.write statement, answer⟩) :
    (after = before ∧ ∃ err, answer = .error err) ∨
      ∃ id value store, (statement.draws = true → id ∉ before.store.issued) ∧
        statement.execute before.store id before.clock = .ok (value, store) ∧
        answer = .ok value ∧ after = { before with store } := by
  obtain ⟨choice, served, made, isAnswer, isAfter⟩ := performs
  rcases World.perform_write made with rfl | ⟨id, fresh, rfl⟩
  · exact .inl ⟨isAfter.symm, _, isAnswer.symm⟩
  · rcases before.commit_cases statement (statement.execute before.store id before.clock) with
      ⟨err, -, committed⟩ | ⟨value, store, executed, committed⟩
    · rw [committed] at isAnswer isAfter
      exact .inl ⟨isAfter.symm, err, isAnswer.symm⟩
    · rw [committed] at isAnswer isAfter
      exact .inr ⟨id, value, store, fresh, executed, isAnswer.symm, isAfter.symm⟩

theorem of_query {asked : Query} {answer : asked.Answer}
    (performs : Performs before after ⟨.query asked, .ok answer⟩) :
    after = before ∧ ∃ order, asked.answer order before.store = some answer := by
  obtain ⟨choice, served, made, isAnswer, rfl⟩ := performs
  obtain ⟨same, rejected | ⟨given, found, isGiven⟩⟩ := World.perform_query made
  · rw [rejected] at isAnswer
    cases isAnswer
  · rw [isGiven] at isAnswer
    obtain rfl := Except.ok.inj isAnswer
    exact ⟨same, choice.order, found⟩

theorem of_horizon {lookup : HorizonCall} {answer : lookup.Answer}
    (performs : Performs before after ⟨.horizon lookup, .ok answer⟩) :
    after = before ∧ lookup.answer before = .ok answer := by
  obtain ⟨choice, served, made, isAnswer, rfl⟩ := performs
  obtain ⟨same, rejected | given⟩ := World.perform_horizon made
  · rw [rejected] at isAnswer
    cases isAnswer
  · exact ⟨same, given.symm.trans isAnswer⟩

theorem of_now {answer : Nat} (performs : Performs before after ⟨.now, .ok answer⟩) :
    answer = before.clock := by
  obtain ⟨choice, served, made, isAnswer, -⟩ := performs
  rw [World.perform_now made] at isAnswer
  exact (Except.ok.inj isAnswer).symm

theorem of_create {model : Model} {new : model.New} {row : model.Row}
    (performs : Performs before after ⟨.write (.create model new), .ok row⟩) :
    ∃ id, id ∉ before.store.issued ∧ row = model.make new id before.clock ∧
      Store.Created before.store after.store model new id before.clock := by
  rcases of_write performs with ⟨-, err, failed⟩ | ⟨id, value, store, fresh, executed, same, rfl⟩
  · cases failed
  · obtain rfl := Except.ok.inj same
    obtain ⟨isRow, created⟩ := Store.create_eq_ok executed
    exact ⟨id, fresh rfl, isRow, created⟩

theorem of_update {model : Model} {id : String} {patch : model.Patch} {row : model.Row}
    (performs : Performs before after ⟨.write (.update model id patch), .ok row⟩) :
    ∃ old, row = model.apply patch old ∧
      Store.Updated before.store after.store model id patch old := by
  rcases of_write performs with ⟨-, err, failed⟩ | ⟨_, value, store, -, executed, same, rfl⟩
  · cases failed
  · obtain rfl := Except.ok.inj same
    exact Store.update_eq_ok executed

theorem of_delete {model : Model} {id : String} {row : model.Row}
    (performs : Performs before after ⟨.write (.delete model id), .ok row⟩) :
    Store.Deleted before.store after.store model id row := by
  rcases of_write performs with ⟨-, err, failed⟩ | ⟨_, value, store, -, executed, same, rfl⟩
  · cases failed
  · obtain rfl := Except.ok.inj same
    exact Store.delete_eq_ok executed

theorem of_upsert {username : String} {credentialId : Option String} {row : Consumer}
    (performs : Performs before after
      ⟨.write (.upsertConsumer username credentialId), .ok row⟩) :
    Store.Upserted before.store after.store username row := by
  rcases of_write performs with ⟨-, err, failed⟩ | ⟨id, value, store, -, executed, same, rfl⟩
  · cases failed
  · obtain rfl := Except.ok.inj same
    exact Store.upsertConsumer_eq_ok executed

theorem issued_of_upsert {username : String} {credentialId : Option String}
    {row : Consumer}
    (performs : Performs before after ⟨.write (.upsertConsumer username credentialId), .ok row⟩) :
    ∀ id ∈ after.store.issued, id ∈ before.store.issued ∨ id = row.id := by
  rcases of_write performs with ⟨-, err, failed⟩ | ⟨id, value, store, -, executed, same, rfl⟩
  · cases failed
  · obtain rfl := Except.ok.inj same
    exact Store.issued_of_upsertConsumer executed

/-- What a call that is not a successful statement leaves in place. -/
theorem store_eq (performs : Performs before after performed)
    (noEffect : ∀ statement value, performed ≠ ⟨.write statement, .ok value⟩) :
    after.store = before.store := by
  obtain ⟨call, answer⟩ := performed
  by_cases isWrite : ∃ statement, call = .write statement
  · obtain ⟨statement, rfl⟩ := isWrite
    rcases of_write performs with ⟨rfl, -⟩ | ⟨-, value, -, -, -, rfl, -⟩
    · rfl
    · exact absurd rfl (noEffect statement value)
  · push Not at isWrite
    obtain ⟨choice, served, made, -, rfl⟩ := performs
    obtain ⟨running, state⟩ := World.perform_running made isWrite
    rw [state]

/-- No call changes the ledger, the accounts or the clock. -/
theorem surroundings (performs : Performs before after performed) :
    after.ledger = before.ledger ∧ after.accounts = before.accounts ∧
      after.clock = before.clock := by
  obtain ⟨call, answer⟩ := performed
  by_cases isWrite : ∃ statement, call = .write statement
  · obtain ⟨statement, rfl⟩ := isWrite
    rcases of_write performs with ⟨rfl, -⟩ | ⟨-, -, store, -, -, -, rfl⟩ <;>
      exact ⟨rfl, rfl, rfl⟩
  · push Not at isWrite
    obtain ⟨choice, served, made, -, rfl⟩ := performs
    obtain ⟨running, state⟩ := World.perform_running made isWrite
    rw [state]
    exact ⟨rfl, rfl, rfl⟩

/-- How a call changes the rows of a model. -/
theorem rows (performs : Performs before after performed) (model : Model) :
    RowsStep model before.store after.store performed := by
  by_cases effect : ∃ statement value, performed = ⟨.write statement, .ok value⟩
  · obtain ⟨statement, value, rfl⟩ := effect
    cases statement with
    | upsertConsumer username credentialId =>
        refine .kept fun key => ?_
        rw [Store.find?, (of_upsert performs).tables]
        rfl
    | create target new =>
        obtain ⟨id, fresh, isRow, change⟩ := of_create performs
        by_cases same : model = target
        · subst same
          exact .created new id before.clock (by rw [← isRow]) fresh change
        · exact .kept fun key => change.others model same key
    | update target id patch =>
        obtain ⟨old, isRow, change⟩ := of_update performs
        by_cases same : model = target
        · subst same
          exact .updated id patch old (by rw [← isRow]) change
        · exact .kept fun key => change.others model same key
    | delete target id =>
        have change := of_delete performs
        by_cases same : model = target
        · subst same
          exact .deleted id value rfl change
        · by_cases isCascade : target = .webhookEndpoint ∧ model = .webhookDelivery
          · obtain ⟨rfl, isDelivery⟩ := isCascade
            exact .cascaded id value isDelivery rfl change
          · exact .kept fun key => change.others model same
              (fun isEndpoint isDelivery => isCascade ⟨isEndpoint, isDelivery⟩) key
  · push Not at effect
    exact .kept fun key => by rw [performs.store_eq effect]

theorem issued (performs : Performs before after performed) :
    ∀ id ∈ before.store.issued, id ∈ after.store.issued := by
  by_cases effect : ∃ statement value, performed = ⟨.write statement, .ok value⟩
  · obtain ⟨statement, value, rfl⟩ := effect
    cases statement with
    | upsertConsumer username credentialId => exact (of_upsert performs).issued
    | create model new =>
        obtain ⟨id, -, -, change⟩ := of_create performs
        rw [change.issued]
        exact fun _ => List.mem_cons_of_mem id
    | update model id patch =>
        obtain ⟨old, -, change⟩ := of_update performs
        rw [change.issued]
        exact fun _ known => known
    | delete model id =>
        rw [(of_delete performs).issued]
        exact fun _ known => known
  · push Not at effect
    rw [performs.store_eq effect]
    exact fun _ known => known

theorem keepsConsumers (performs : Performs before after performed) :
    before.store.KeepsConsumers after.store := by
  by_cases effect : ∃ statement value, performed = ⟨.write statement, .ok value⟩
  · obtain ⟨statement, value, rfl⟩ := effect
    cases statement with
    | upsertConsumer username credentialId => exact (of_upsert performs).keeps
    | create model new =>
        obtain ⟨id, -, -, change⟩ := of_create performs
        exact .of_eq change.consumers
    | update model id patch =>
        obtain ⟨old, -, change⟩ := of_update performs
        exact .of_eq change.consumers
    | delete model id => exact .of_eq (of_delete performs).consumers
  · push Not at effect
    exact .of_eq (by rw [performs.store_eq effect])

/-- A column that no patch changes is, for an id that was known, what it was before. -/
theorem column_eq {model : Model} {β : Type} (column : model.Row → β)
    (stable : ∀ patch row, column (model.apply patch row) = column row)
    (performs : Performs before after performed) {id : String} {row : model.Row}
    (known : id ∈ before.store.issued) (found : after.store.find? model id = some row) :
    ∃ old, before.store.find? model id = some old ∧ column row = column old := by
  cases performs.rows model with
  | kept same => exact ⟨row, (same id).symm.trans found, rfl⟩
  | created new drawn createdAt _ fresh change =>
      have differ : drawn ≠ id := by
        rintro rfl
        exact fresh known
      rw [change.lookup, if_neg differ] at found
      exact ⟨row, found, rfl⟩
  | updated key patch old _ change =>
      rw [change.lookup] at found
      split at found
      · rename_i isId
        subst isId
        obtain rfl := Option.some.inj found
        exact ⟨old, change.found, stable patch old⟩
      · exact ⟨row, found, rfl⟩
  | deleted key old _ change =>
      rw [change.lookup] at found
      split at found
      · cases found
      · exact ⟨row, found, rfl⟩
  | cascaded key old isDelivery _ change =>
      subst isDelivery
      rw [change.deliveries rfl] at found
      exact ⟨row, (Option.filter_eq_some_iff.mp found).1, rfl⟩

/-- A row under an id that was not known before has just been created. -/
theorem created_of_unknown {model : Model} (performs : Performs before after performed)
    {id : String} {row : model.Row} (unknown : id ∉ before.store.issued)
    (found : after.store.find? model id = some row) :
    ∃ new createdAt, performed = ⟨.write (.create model new), .ok row⟩ ∧
      row = model.make new id createdAt ∧
      Store.Created before.store after.store model new id createdAt := by
  have absent : before.store.find? model id ≠ some row :=
    fun known => unknown (Store.issued_of_find? known)
  cases performs.rows model with
  | kept same => exact absurd ((same id).symm.trans found) absent
  | created new drawn createdAt isCreate _ change =>
      rw [change.lookup] at found
      split at found
      · rename_i isId
        subst isId
        obtain rfl := Option.some.inj found
        exact ⟨new, createdAt, isCreate, rfl, change⟩
      · exact absurd found absent
  | updated key patch old _ change =>
      rw [change.lookup] at found
      split at found
      · rename_i isId
        subst isId
        exact absurd (Store.issued_of_find? change.found) unknown
      · exact absurd found absent
  | deleted key old _ change =>
      rw [change.lookup] at found
      split at found
      · cases found
      · exact absurd found absent
  | cascaded key old isDelivery _ change =>
      subst isDelivery
      rw [change.deliveries rfl] at found
      exact absurd (Option.filter_eq_some_iff.mp found).1 absent

/-- An intent stays as far as the updates of it keep what is wanted of it, and it is
not deleted. -/
theorem intent_kept {I : PaymentIntent → Prop} (performs : Performs before after performed)
    {id : String} {row : PaymentIntent}
    (found : before.store.find? .paymentIntent id = some row) (holds : I row)
    (updates : ∀ patch, performed = ⟨.write (.update .paymentIntent id patch),
      .ok (Model.apply .paymentIntent patch row)⟩ → I (Model.apply .paymentIntent patch row))
    (deletes : performed ≠ ⟨.write (.delete .paymentIntent id), .ok row⟩) :
    ∃ row', after.store.find? .paymentIntent id = some row' ∧ I row' := by
  cases performs.rows .paymentIntent with
  | kept same => exact ⟨row, (same id).trans found, holds⟩
  | created new drawn createdAt _ fresh change =>
      have differ : drawn ≠ id := by
        rintro rfl
        exact fresh (Store.issued_of_find? found)
      exact ⟨row, by rw [change.lookup, if_neg differ, found], holds⟩
  | updated key patch old isUpdate change =>
      by_cases isId : key = id
      · subst isId
        obtain rfl := Option.some.inj (change.found.symm.trans found)
        exact ⟨_, (change.lookup key).trans (if_pos rfl), updates patch isUpdate⟩
      · exact ⟨row, by rw [change.lookup, if_neg isId, found], holds⟩
  | deleted key old isDelete change =>
      by_cases isId : key = id
      · subst isId
        obtain rfl := Option.some.inj (change.found.symm.trans found)
        exact absurd isDelete deletes
      · exact ⟨row, by rw [change.lookup, if_neg isId, found], holds⟩
  | cascaded key old isDelivery => cases isDelivery

end Performs

/-! ## Steps of the pool -/

/-- What the surroundings may do in a step. -/
structure Drifts (before after : World) : Prop where
  store : after.store = before.store
  running : after.running = before.running
  ledger : ∀ key tx, before.ledger.find? key = some tx → after.ledger.find? key = some tx
  landed : ∀ tx ∈ after.ledger.rows, tx ∈ before.ledger.rows ∨ before.clock ≤ tx.landedAt
  clock : before.clock ≤ after.clock

theorem Drifts.refl (world : World) : Drifts world world :=
  ⟨rfl, rfl, fun _ _ found => found, fun _ member => .inl member, Nat.le_refl _⟩

theorem Drifts.of_move {move : World.Move} {before after : World}
    (moved : World.move move before = some after) : Drifts before after := by
  cases move with
  | pass milliseconds =>
      obtain rfl := Option.some.inj moved
      exact ⟨rfl, rfl, fun _ _ found => found, fun _ member => .inl member, Nat.le_add_right _ _⟩
  | land tx =>
      simp only [World.move, Option.ite_none_right_eq_some, Option.map_eq_some_iff] at moved
      obtain ⟨now, ledger, inserted, rfl⟩ := moved
      refine ⟨rfl, rfl, fun key old found => ?_, fun other member => ?_, Nat.le_refl _⟩
      · obtain ⟨present, isKey⟩ := Table.find?_eq_some_iff.mp found
        exact Table.find?_eq_some_iff.mpr
          ⟨(Table.mem_insert? inserted).mpr (.inl present), isKey⟩
      · rcases (Table.mem_insert? inserted).mp member with old | rfl
        · exact .inl old
        · exact .inr (Nat.le_of_eq now.symm)
  | fund network account =>
      obtain rfl := Option.some.inj moved
      exact ⟨rfl, rfl, fun _ _ found => found, fun _ member => .inl member, Nat.le_refl _⟩

section Steps

variable {deployment : Deployment}
variable {allows : Config (service deployment) → Label (service deployment) → Prop}
variable {config config' : Config (service deployment)}

/-- A step in which a thread gets the answer to its call. -/
structure Resumes (allows : Config (service deployment) → Label (service deployment) → Prop)
    (config config' : Config (service deployment)) (thread : Nat) (choice : Choice)
    (request : Request) (performed : Performed signature) : Prop where
  allowed : allows config (.resume thread choice)
  step : Step allows config config'
  paused : ∃ resume, config.threads[thread]? = some ⟨request, .await performed.call resume⟩ ∧
    config'.threads[thread]? = some ⟨request, resume performed.answer⟩
  trace : config'.trace = ⟨thread, performed⟩ :: config.trace
  answered : ∃ served, World.perform performed.call choice config.state = some served ∧
    served.answer = performed.answer ∧ served.state = config'.state
  others : ∀ {index : Nat} {found : Thread (service deployment)},
    config'.threads[index]? = some found → index = thread ∨ config.threads[index]? = some found ∨
      ∃ task, found.request = Request.background task

theorem Resumes.performs {thread : Nat} {choice : Choice} {request : Request}
    {performed : Performed signature}
    (resumes : Resumes allows config config' thread choice request performed) :
    Performs config.state config'.state performed := by
  obtain ⟨served, made, isAnswer, isState⟩ := resumes.answered
  exact ⟨choice, served, made, isAnswer, isState⟩

theorem Resumes.past_self {thread : Nat} {choice : Choice} {request : Request}
    {performed : Performed signature}
    (resumes : Resumes allows config config' thread choice request performed) :
    config'.past thread = performed :: config.past thread := by
  rw [Config.past, resumes.trace, pastOf_cons_self]
  rfl

theorem Resumes.past_of_ne {thread other : Nat} {choice : Choice} {request : Request}
    {performed : Performed signature}
    (resumes : Resumes allows config config' thread choice request performed)
    (differ : thread ≠ other) : config'.past other = config.past other := by
  rw [Config.past, resumes.trace]
  exact pastOf_cons_of_ne differ _

theorem Resumes.of_resume {thread : Nat} {choice : Choice} {request : Request} {call : Call}
    {resume : signature.Result call → Promise Reply} {served : Served signature call World Request}
    (allowed : allows config (.resume thread choice))
    (paused : config.threads[thread]? = some ⟨request, .await call resume⟩)
    (performed : World.perform call choice config.state = some served) :
    Resumes allows config (config.advance thread request call resume served) thread choice request
      ⟨call, served.answer⟩ := by
  have bound := (List.getElem?_eq_some_iff.mp paused).1
  have step : Step allows config (config.advance thread request call resume served) :=
    @Step.resume _ (service deployment) _ _ thread choice _ _ _ _ allowed paused performed
  refine ⟨allowed, step, ⟨resume, paused, ?_⟩, rfl, ⟨served, performed, rfl, rfl⟩, ?_⟩
  · simp only [Config.advance]
    rw [List.getElem?_append_left (by simpa using bound), List.getElem?_set_self bound]
  · intro index found lookup
    rcases Config.threads_advance bound lookup with
      ⟨isThread, -⟩ | ⟨-, old⟩ | ⟨-, started, spawned, rfl⟩
    · exact .inl isThread
    · exact .inr (.inl old)
    · exact .inr (.inr (World.perform_spawned performed started spawned))

/-- A step either leaves the trace and the store alone, or resumes a thread. -/
theorem step_cases (step : Step allows config config') :
    (config'.trace = config.trace ∧ Drifts config.state config'.state) ∨
      ∃ thread choice request performed,
        Resumes allows config config' thread choice request performed := by
  cases step with
  | issue request _ => exact .inl ⟨rfl, .refl _⟩
  | resume thread choice allowed paused performed =>
      exact .inr ⟨thread, choice, _, _, .of_resume allowed paused performed⟩
  | move move _ moved => exact .inl ⟨rfl, .of_move moved⟩

theorem step_issued (step : Step allows config config') :
    ∀ id ∈ config.state.store.issued, id ∈ config'.state.store.issued := by
  rcases step_cases step with ⟨-, drifts⟩ | ⟨_, _, _, _, resumes⟩
  · rw [drifts.store]
    exact fun _ known => known
  · exact resumes.performs.issued

theorem step_trace (step : Step allows config config') : config.trace ⊆ config'.trace := by
  rcases step_cases step with ⟨same, -⟩ | ⟨_, _, _, _, resumes⟩
  · rw [same]
    exact List.Subset.refl _
  · rw [resumes.trace]
    exact List.subset_cons_self _ _

theorem trace_subset (run : Run allows config config') : config.trace ⊆ config'.trace :=
  run.keeps (I := fun latest : Config (service deployment) => config.trace ⊆ latest.trace)
    (List.Subset.refl _) fun _ _ _ older step => List.Subset.trans older (step_trace step)

/-- The history of a thread only grows. -/
theorem past_subset (run : Run allows config config') (thread : Nat) :
    config.past thread ⊆ config'.past thread :=
  fun _ member => mem_pastOf.mpr (trace_subset run (mem_pastOf.mp member))

theorem Resumes.past_subset {thread : Nat} {choice : Choice} {request : Request}
    {performed : Performed signature}
    (resumes : Resumes allows config config' thread choice request performed) :
    config.past thread ⊆ config'.past thread := by
  rw [resumes.past_self]
  exact List.subset_cons_self _ _

/-- Transactions stay in the ledger. -/
theorem step_ledger (step : Step allows config config') {key : StellarNetwork × String}
    {tx : Transaction} (found : config.state.ledger.find? key = some tx) :
    config'.state.ledger.find? key = some tx := by
  rcases step_cases step with ⟨-, drifts⟩ | ⟨_, _, _, _, resumes⟩
  · exact drifts.ledger key tx found
  · rwa [resumes.performs.surroundings.1]

/-- Nothing is stored before the first step from an empty database. -/
theorem find?_initial {state : World} (start : state.store = .empty) (model : Model)
    (id : String) : (Config.initial state : Config (service deployment)).state.store.find?
      model id = none := by
  have isEmpty : (Config.initial state : Config (service deployment)).state.store = .empty := start
  rw [isEmpty]
  rfl

/-- An entry of the trace was made by a step of the run that began with the entries before it. -/
theorem exists_resumes_of_split {state : World} (run : Run allows (Config.initial state) config)
    {thread : Nat} {performed : Performed signature} {newer older : List (Entry signature)}
    (split : config.trace = newer ++ ⟨thread, performed⟩ :: older) :
    ∃ before after choice request, Run allows (Config.initial state) before ∧
      before.trace = older ∧ Resumes allows before after thread choice request performed ∧
      Run allows after config ∧ ∃ code, config.threads[thread]? = some ⟨request, code⟩ := by
  revert newer
  refine run.keeps (I := fun config : Config (service deployment) => ∀ {newer},
    config.trace = newer ++ ⟨thread, performed⟩ :: older →
      ∃ before after choice request, Run allows (Config.initial state) before ∧
        before.trace = older ∧ Resumes allows before after thread choice request performed ∧
        Run allows after config ∧ ∃ code, config.threads[thread]? = some ⟨request, code⟩) ?_ ?_
  · intro newer split
    simp [Config.initial] at split
  · intro config config' reached ih step newer split
    have carry : ∀ {newer}, config.trace = newer ++ ⟨thread, performed⟩ :: older →
        ∃ before after choice request, Run allows (Config.initial state) before ∧
          before.trace = older ∧ Resumes allows before after thread choice request performed ∧
          Run allows after config' ∧ ∃ code, config'.threads[thread]? = some ⟨request, code⟩ := by
      intro newer split
      obtain ⟨before, after, choice, request, passed, isOlder, resumes, later, code, lookup⟩ :=
        ih split
      exact ⟨before, after, choice, request, passed, isOlder, resumes, later.tail step,
        step.request_stable lookup⟩
    rcases step_cases step with ⟨sameTrace, -⟩ | ⟨_, _, _, made, resumes⟩
    · rw [sameTrace] at split
      exact carry split
    · rw [resumes.trace] at split
      cases newer with
      | nil =>
          obtain ⟨isNew, rfl⟩ := List.cons.inj split
          obtain ⟨rfl, rfl⟩ := Entry.mk.inj isNew
          obtain ⟨resume, -, lookup⟩ := resumes.paused
          exact ⟨config, config', _, _, reached, rfl, resumes, .refl, _, lookup⟩
      | cons newest newer => exact carry (List.cons.inj split).2

/-- A call in the trace was performed by some step of the run. -/
theorem exists_resumes_of_mem {state : World} (run : Run allows (Config.initial state) config)
    {thread : Nat} {performed : Performed signature}
    (member : ⟨thread, performed⟩ ∈ config.trace) :
    ∃ before after choice request, Run allows (Config.initial state) before ∧
      Resumes allows before after thread choice request performed ∧ Run allows after config ∧
      ∃ code, config.threads[thread]? = some ⟨request, code⟩ := by
  obtain ⟨newer, older, split⟩ := List.append_of_mem member
  obtain ⟨before, after, choice, request, reached, -, rest⟩ := exists_resumes_of_split run split
  exact ⟨before, after, choice, request, reached, rest⟩

/-! ## What stays -/

/-- A property that neither calls nor the surroundings undo. -/
structure Stable (P : World → Prop) : Prop where
  performs : ∀ {before after performed}, Performs before after performed → P before → P after
  drifts : ∀ {before after}, Drifts before after → P before → P after

variable {P : World → Prop}

theorem Stable.step (stable : Stable P) (step : Step allows config config')
    (holds : P config.state) : P config'.state := by
  rcases step_cases step with ⟨-, drifts⟩ | ⟨_, _, _, _, resumes⟩
  · exact stable.drifts drifts holds
  · exact stable.performs resumes.performs holds

theorem Stable.run (stable : Stable P) (run : Run allows config config')
    (holds : P config.state) : P config'.state :=
  run.keeps (I := fun config : Config (service deployment) => P config.state) holds
    fun _ _ _ kept step => stable.step step kept

omit deployment allows config config' P in
theorem belongsTo_stable (consumerId username : String) :
    Stable fun world => world.store.belongsTo consumerId username = true where
  performs performs owned := performs.keepsConsumers.belongsTo owned
  drifts drifts owned := by rwa [drifts.store]

/-! ## Which requests are issued -/

/-- Is every request that the label issues admitted? -/
def issues (admits : Request → Bool) : Label (service deployment) → Bool
  | .issue request => admits request
  | _ => true

theorem issues_mono {admits admits' : Request → Bool}
    (weaker : ∀ request, admits request = true → admits' request = true)
    {label : Label (service deployment)} (issued : issues admits label = true) :
    issues admits' label = true := by
  cases label with
  | issue request => exact weaker request issued
  | resume thread choice => rfl
  | move move => rfl

/-- Where only admitted requests are issued, every thread serves one. -/
theorem request_admitted {admits : Request → Bool} {state : World}
    (background : ∀ task, admits (.background task) = true)
    (run : Run (fun _ label => issues admits label = true) (Config.initial state) config)
    {index : Nat} {thread : Thread (service deployment)}
    (lookup : config.threads[index]? = some thread) : admits thread.request = true := by
  refine @Run.requests _ (service deployment) _ _ _ (fun request => admits request = true) run
    (fun _ _ issued => issued) (fun performed => ?_) _ _ lookup
  intro request member
  obtain ⟨task, rfl⟩ := World.perform_spawned performed request member
  exact background task

end Steps

end CosmosPay
