import CosmosPay.Reentrancy
import CosmosPay.Tenants

/-!
# The world without the other tenants

A world is screened for a user if it holds what the user has, and no intent of anybody else.
Calls about the user's rows are answered the same in both worlds, as long as nobody else's
intent holds a hash that the user's is to get: the index on `txHash` spans all tenants.
-/

namespace CosmosPay

open Awaiting Tables Program

/-! ## What the answer of a statement depends on -/

section Replies

variable {store store' : Store} {model : Model} {id : String} {now : Nat}

/-- What a statement answers, without the store that it leaves. -/
def Write.reply (statement : Write) (store : Store) (id : String) (now : Nat) :
    Except ServiceError statement.Answer :=
  (statement.execute store id now).map Prod.fst

theorem reply_create {new : model.New}
    (clashes : (∃ old ∈ (store'.tables model).rows,
        model.indexes.clash old (model.make new id now) = true) ↔
      ∃ old ∈ (store.tables model).rows, model.indexes.clash old (model.make new id now) = true)
    (parents : store'.hasParent model (model.parent (model.make new id now)) =
      store.hasParent model (model.parent (model.make new id now))) :
    (Write.create model new).reply store' id now = (Write.create model new).reply store id now := by
  have reply : ∀ store : Store, (Write.create model new).reply store id now =
      if (∃ old ∈ (store.tables model).rows,
          model.indexes.clash old (model.make new id now) = true) then .error (.prisma "P2002")
      else if store.hasParent model (model.parent (model.make new id now)) then
        .ok (model.make new id now) else .error (.prisma "P2003") := by
    intro store
    change (store.create model new id now).map Prod.fst = _
    unfold Store.create
    simp only
    split
    · rename_i refused
      rw [if_pos (Table.insert?_eq_none refused)]
      rfl
    · rename_i table inserted
      have free : ¬ ∃ old ∈ (store.tables model).rows,
          model.indexes.clash old (model.make new id now) = true := by
        rintro ⟨old, member, clash⟩
        simp [(Table.insert?_eq_some inserted).2 old member] at clash
      rw [if_neg free]
      split <;> rfl
  rw [reply, reply, parents]
  exact if_congr clashes rfl rfl

theorem reply_update {patch : model.Patch} (drawn : String)
    (found : store'.find? model id = store.find? model id)
    (clashes : ∀ old, store.find? model id = some old →
      ((∃ other ∈ (store'.tables model).rows, model.indexes.key other ≠ id ∧
          model.indexes.clash other (model.apply patch old) = true) ↔
        ∃ other ∈ (store.tables model).rows, model.indexes.key other ≠ id ∧
          model.indexes.clash other (model.apply patch old) = true)) :
    (Write.update model id patch).reply store' drawn now =
      (Write.update model id patch).reply store drawn now := by
  have reply : ∀ store : Store, (Write.update model id patch).reply store drawn now =
      if model.nullsRequired patch then .error (.other "PrismaClientValidationError")
      else (store.find? model id).elim (.error (.prisma "P2025")) fun old =>
        if (∃ other ∈ (store.tables model).rows, model.indexes.key other ≠ id ∧
          model.indexes.clash other (model.apply patch old) = true) then .error (.prisma "P2002")
        else .ok (model.apply patch old) := by
    intro store
    change (store.update model id patch).map Prod.fst = _
    unfold Store.update Store.find?
    split
    · rfl
    · split
      · rename_i failed
        rcases Table.update_eq_error failed with ⟨-, absent⟩ | ⟨isTaken, -⟩
        · rw [absent]
          rfl
        · cases isTaken
      · rename_i failed
        rcases Table.update_eq_error failed with ⟨isMissing, -⟩ | ⟨-, old, present, clash⟩
        · cases isMissing
        · rw [present, Option.elim_some, if_pos clash]
          rfl
      · rename_i row table changed
        obtain ⟨old, present, rfl, -, free⟩ := Table.update_eq_ok changed
        rw [present, Option.elim_some, if_neg]
        · rfl
        · rintro ⟨other, member, differ, clash⟩
          simp [free other member differ] at clash
  rw [reply, reply, found]
  cases lookup : store.find? model id with
  | none => rfl
  | some old => simp only [Option.elim_some, clashes old lookup]

theorem reply_delete (drawn : String) (found : store'.find? model id = store.find? model id) :
    (Write.delete model id).reply store' drawn now =
      (Write.delete model id).reply store drawn now := by
  have reply : ∀ store : Store, (Write.delete model id).reply store drawn now =
      (store.find? model id).elim (.error (.prisma "P2025")) .ok := by
    intro store
    change (store.delete model id).map Prod.fst = _
    unfold Store.delete Store.find?
    cases (store.tables model).find? id <;> rfl
  rw [reply, reply, found]

theorem reply_upsert {username : String} {credentialId : Option String}
    (named : store'.consumerNamed username = store.consumerNamed username)
    (fresh : id ∉ store.issued) (fresh' : id ∉ store'.issued) :
    (Write.upsertConsumer username credentialId).reply store' id now =
      (Write.upsertConsumer username credentialId).reply store id now := by
  -- the row under that name, refreshed, or a new one
  have reply : ∀ (store : Store) (found? : Option Consumer), id ∉ store.issued →
      store.consumerNamed username = found? →
      (Write.upsertConsumer username credentialId).reply store id now =
        .ok (found?.elim ⟨id, username, credentialId⟩ fun found =>
          { found with credentialId }) := by
    intro store found? fresh isFound
    obtain ⟨⟨row, after⟩, upserted⟩ := Store.upsertConsumer_isOk username credentialId fresh
    change (store.upsertConsumer username credentialId id).map Prod.fst = _
    rw [upserted]
    refine congrArg Except.ok ?_
    unfold Store.upsertConsumer at upserted
    split at upserted
    · rename_i found named
      obtain rfl : found? = some found := isFound.symm.trans named
      obtain ⟨present, -⟩ := Store.consumerNamed_eq_some_iff.mp named
      split at upserted
      · cases upserted
      · rename_i table updated
        cases upserted
        obtain ⟨old, oldFound, rfl, -⟩ := Table.update_eq_ok updated
        obtain rfl : old = found := Option.some.inj (oldFound.symm.trans present)
        rfl
    · rename_i absent
      obtain rfl : found? = none := isFound.symm.trans absent
      split at upserted
      · cases upserted
      · cases upserted
        rfl
  rw [reply store' _ fresh' named, reply store _ fresh rfl]

end Replies

/-! ## Screened worlds -/

/-- Every intent has its consumer. -/
def Store.Homed (store : Store) : Prop :=
  ∀ intent ∈ store.intents.rows, ∃ owner, store.consumers.find? intent.consumerId = some owner

/-- The second store holds what the user has in the first, and no intent of anybody else. -/
structure Store.Screened (store : Store) (user : String) (screened : Store) : Prop where
  consumers : ∀ row : Consumer, row.apisixUsername = user →
    (screened.consumers.find? row.id = some row ↔ store.consumers.find? row.id = some row)
  intents : ∀ intent, intent ∈ screened.intents.rows ↔
    intent ∈ store.intents.rows ∧ store.belongsTo intent.consumerId user = true
  issued : ∀ id ∈ screened.issued, id ∈ store.issued
  homed : store.Homed

/-- The same world with a screened store. -/
structure Screened (user : String) (world screened : World) : Prop where
  store : world.store.Screened user screened.store
  ledger : screened.ledger = world.ledger
  accounts : screened.accounts = world.accounts
  clock : screened.clock = world.clock
  running : screened.running = world.running

namespace Store

section Lookups

variable {user id : String} {store screened : Store}

namespace Screened

theorem belongsTo_eq (isScreened : store.Screened user screened) (consumerId : String) :
    screened.belongsTo consumerId user = store.belongsTo consumerId user := by
  refine Bool.eq_iff_iff.mpr ?_
  simp only [belongsTo_iff]
  refine exists_congr fun owner => ⟨?_, ?_⟩
  · rintro ⟨found, named⟩
    obtain rfl := Table.key_of_find? found
    exact ⟨(isScreened.consumers owner named).mp found, named⟩
  · rintro ⟨found, named⟩
    obtain rfl := Table.key_of_find? found
    exact ⟨(isScreened.consumers owner named).mpr found, named⟩

theorem named_eq (isScreened : store.Screened user screened) :
    screened.consumerNamed user = store.consumerNamed user := by
  refine Option.ext fun owner => ?_
  rw [consumerNamed_eq_some_iff, consumerNamed_eq_some_iff]
  exact and_congr_left fun named => isScreened.consumers owner named

/-- The intents of the screened world are the user's. -/
theorem perm (isScreened : store.Screened user screened) :
    screened.intents.rows.Perm
      (store.intents.rows.filter fun row => store.belongsTo row.consumerId user) := by
  refine (List.perm_ext_iff_of_nodup ?_ ?_).mpr fun intent => ?_
  · exact screened.intents.nodup_keys.of_map
  · exact store.intents.nodup_keys.of_map.filter _
  · rw [List.mem_filter, isScreened.intents]

theorem find_eq (isScreened : store.Screened user screened)
    (belongs : store.Belongs user .paymentIntent id) :
    screened.find? .paymentIntent id = store.find? .paymentIntent id := by
  refine Option.ext fun intent => ?_
  simp only [find?, Table.find?_eq_some_iff]
  constructor
  · rintro ⟨member, isId⟩
    exact ⟨((isScreened.intents _).mp member).1, isId⟩
  · rintro ⟨member, isId⟩
    have owned := belongs.2 intent (Table.find?_eq_some_iff.mpr ⟨member, isId⟩)
    exact ⟨(isScreened.intents _).mpr ⟨member, owned⟩, isId⟩

theorem owned_eq (isScreened : store.Screened user screened) (id : String) :
    (screened.intents.find? id).filter
        (fun row => screened.belongsTo row.consumerId user) =
      (store.intents.find? id).filter
        fun row => store.belongsTo row.consumerId user := by
  refine Option.ext fun intent => ?_
  simp only [Option.filter_eq_some_iff, Table.find?_eq_some_iff, isScreened.belongsTo_eq,
    isScreened.intents]
  tauto

theorem byMemo_eq (isScreened : store.Screened user screened) {consumerId : String}
    (owned : store.belongsTo consumerId user = true) (memo : String) :
    (screened.intents.rows.find? fun row => row.consumerId = consumerId ∧ row.memo = memo) =
      store.intents.rows.find? fun row => row.consumerId = consumerId ∧ row.memo = memo := by
  -- no two intents of a consumer share a memo
  have lookup : ∀ (store : Store) (intent : PaymentIntent),
      (store.intents.rows.find? fun row => row.consumerId = consumerId ∧ row.memo = memo) =
        some intent ↔
        intent ∈ store.intents.rows ∧ intent.consumerId = consumerId ∧ intent.memo = memo := by
    intro store intent
    constructor
    · intro found
      exact ⟨List.mem_of_find?_eq_some found, by simpa using List.find?_some found⟩
    · rintro ⟨member, isOwner, isMemo⟩
      cases found : store.intents.rows.find?
          fun row => row.consumerId = consumerId ∧ row.memo = memo with
      | none =>
          have absent := List.find?_eq_none.mp found intent member
          simp [isOwner, isMemo] at absent
      | some other =>
          have isOther : other.consumerId = consumerId ∧ other.memo = memo := by
            simpa using List.find?_some found
          rw [Table.eq_of_clash (List.mem_of_find?_eq_some found) member
            (by simp [intentIndexes, isOther, isOwner, isMemo])]
  refine Option.ext fun intent => ?_
  rw [lookup, lookup, isScreened.intents]
  constructor
  · rintro ⟨member, isRow⟩
    exact ⟨member.1, isRow⟩
  · rintro ⟨member, isRow⟩
    refine ⟨⟨member, ?_⟩, isRow⟩
    rw [isRow.1]
    exact owned

end Screened

end Lookups

end Store

/-! ## Queries -/

section Queries

variable {user : String} {past : History signature} {world screened : World}

theorem Store.nodup_ids (store : Store) (keep : PaymentIntent → Bool) :
    ((store.intents.rows.filter keep).map PaymentIntent.id).Nodup :=
  store.intents.nodup_keys.sublist (List.filter_sublist.map _)

/-- Rows of the user that satisfy a condition. -/
theorem Store.Screened.perm_filter {store screened : Store}
    (isScreened : store.Screened user screened) {keep : PaymentIntent → Bool} :
    (screened.intents.rows.filter keep).Perm (store.intents.rows.filter fun row =>
      keep row && store.belongsTo row.consumerId user) := by
  have filtered := isScreened.perm.filter keep
  rwa [List.filter_filter] at filtered

namespace Screened

theorem query_eq (isScreened : Screened user world screened) {asked : Query}
    (truthful : Truthful user past world) (permitted : permitsQuery user past asked)
    (intends : (Call.query asked).Intends) (order : List String) :
    asked.answer order screened.store = asked.answer order world.store := by
  cases asked with
  | intentByMemo consumerId memo =>
      exact congrArg some (isScreened.store.byMemo_eq (truthful.enrolled _ permitted) memo)
  | intentOwned id name =>
      obtain rfl : name = user := permitted
      exact congrArg some (isScreened.store.owned_eq id)
  | intentIdOwned id name =>
      obtain rfl : name = user := permitted
      exact congrArg (fun found => some (found.map PaymentIntent.id)) (isScreened.store.owned_eq id)
  | intentStatus id =>
      exact congrArg (fun found => some (found.map PaymentIntent.status))
        (isScreened.store.find_eq (truthful.owned _ id permitted))
  | intentSource id =>
      exact congrArg (fun found => some (found.map PaymentIntent.source))
        (isScreened.store.find_eq (truthful.owned _ id permitted))
  | intentPage name status take skip =>
      obtain rfl : name = user := permitted
      have matching : (screened.store.intents.rows.filter fun row =>
            screened.store.belongsTo row.consumerId name ∧
              (status = none ∨ status = row.status)).Perm
          (world.store.intents.rows.filter fun row =>
            world.store.belongsTo row.consumerId name ∧
              (status = none ∨ status = row.status)) := by
        refine isScreened.store.perm_filter.trans
          (List.Perm.of_eq (List.filter_congr fun row _ => ?_))
        rw [isScreened.store.belongsTo_eq]
        cases world.store.belongsTo row.consumerId name <;> simp
      simp only [Query.answer, arrangeBy?,
        arrange?_perm (world.store.nodup_ids _) matching, matching.length_eq]
  | customerIdByAccount consumerId account => exact permitted.elim
  | _ => exact intends.elim

theorem horizon_eq (isScreened : Screened user world screened) (lookup : HorizonCall) :
    lookup.answer screened = lookup.answer world := by
  cases lookup <;>
    simp only [HorizonCall.answer, World.account?, World.paymentsOn, isScreened.ledger,
      isScreened.accounts]

end Screened

end Queries

/-! ## Statements -/

section Statements

variable {user id : String} {past : History signature} {world screened : World}

def Call.intentUpdate? : Call → Option (String × PaymentIntentPatch)
  | .write (.update .paymentIntent id patch) => some (id, patch)
  | _ => none

/-- The call gives no intent of the user a hash that somebody else's intent holds. -/
def HashesApart (user : String) (world : World) (call : Call) : Prop :=
  ∀ update ∈ call.intentUpdate?, ∀ old ∈ world.store.intents.rows, old.id = update.1 →
    world.store.belongsTo old.consumerId user = true →
      ∀ row ∈ world.store.intents.rows, row.txHash.map Field.value = some update.2.txHash →
        world.store.belongsTo row.consumerId user = true

namespace Screened

theorem hasParent_eq (isScreened : Screened user world screened) {consumerId : String}
    (owned : world.store.belongsTo consumerId user = true) :
    (screened.store.consumers.find? consumerId).isSome =
      (world.store.consumers.find? consumerId).isSome := by
  obtain ⟨owner, found, -⟩ := Store.belongsTo_iff.mp owned
  obtain ⟨owner', found', -⟩ :=
    Store.belongsTo_iff.mp ((isScreened.store.belongsTo_eq consumerId).trans owned)
  rw [found, found']
  rfl

/-- What clashes with a new intent of the user is the user's. -/
theorem clash_create (isScreened : Screened user world screened) {new : NewPaymentIntent}
    {now : Nat} (owned : world.store.belongsTo new.consumerId user = true)
    (fresh : id ∉ world.store.issued) :
    (∃ old ∈ screened.store.intents.rows,
        intentIndexes.clash old (Model.make .paymentIntent new id now) = true) ↔
      ∃ old ∈ world.store.intents.rows,
        intentIndexes.clash old (Model.make .paymentIntent new id now) = true := by
  refine ⟨fun ⟨old, member, clash⟩ => ⟨old, ((isScreened.store.intents _).mp member).1, clash⟩,
    fun ⟨old, member, clash⟩ => ⟨old, (isScreened.store.intents _).mpr ⟨member, ?_⟩, clash⟩⟩
  have isIssued : old.id ∈ world.store.issued := world.store.rowsIssued .paymentIntent old member
  rcases of_decide_eq_true clash with sameId | ⟨sameOwner, -⟩ | ⟨given, sameHash⟩
  · have isNew : old.id = id := sameId
    rw [isNew] at isIssued
    exact absurd isIssued fresh
  · have isOwner : old.consumerId = new.consumerId := sameOwner
    rwa [isOwner]
  · exact absurd sameHash given

/-- What clashes with a patched intent of the user is the user's. -/
theorem clash_update (isScreened : Screened user world screened) {patch : PaymentIntentPatch}
    {old : PaymentIntent} (found : world.store.find? .paymentIntent id = some old)
    (owned : world.store.belongsTo old.consumerId user = true)
    (apart : HashesApart user world (.write (.update .paymentIntent id patch))) :
    (∃ other ∈ screened.store.intents.rows, other.id ≠ id ∧
        intentIndexes.clash other (Model.apply .paymentIntent patch old) = true) ↔
      ∃ other ∈ world.store.intents.rows, other.id ≠ id ∧
        intentIndexes.clash other (Model.apply .paymentIntent patch old) = true := by
  have oldMember := Table.mem_of_find? found
  have isId : old.id = id := Table.key_of_find? found
  refine ⟨fun ⟨other, member, clash⟩ => ⟨other, ((isScreened.store.intents _).mp member).1, clash⟩,
    fun ⟨other, member, differ, clash⟩ =>
      ⟨other, (isScreened.store.intents _).mpr ⟨member, ?_⟩, differ, clash⟩⟩
  rcases of_decide_eq_true clash with sameId | ⟨sameOwner, -⟩ | ⟨given, sameHash⟩
  · exact absurd (sameId.trans isId) differ
  · have isOwner : other.consumerId = old.consumerId := sameOwner
    rwa [isOwner]
  · have isHash : other.txHash = patch.txHash.set old.txHash := sameHash
    cases setsHash : patch.txHash with
    | undefined =>
        rw [setsHash] at isHash
        have isOld := Table.eq_of_clash member oldMember
          (decide_eq_true (.inr (.inr ⟨given, isHash⟩)))
        rwa [isOld]
    | null =>
        rw [setsHash] at isHash
        exact absurd isHash given
    | value hash =>
        rw [setsHash] at isHash
        exact apart (id, patch) rfl old oldMember isId owned other member
          (by rw [isHash, setsHash]; rfl)

theorem reply_eq (isScreened : Screened user world screened) {statement : Write}
    (truthful : Truthful user past world) (permitted : permitsWrite user past statement)
    (intends : (Call.write statement).Intends)
    (apart : HashesApart user world (.write statement))
    (fresh : statement.draws = true → id ∉ world.store.issued) :
    statement.reply screened.store id screened.clock =
      statement.reply world.store id world.clock := by
  rw [isScreened.clock]
  cases statement with
  | upsertConsumer name credentialId =>
      obtain rfl : name = user := permitted
      have unknown := fresh rfl
      exact reply_upsert isScreened.store.named_eq unknown
        fun known => unknown (isScreened.store.issued id known)
  | create model new =>
      have owned := truthful.enrolled _ (permitted.2 id world.clock)
      have unknown := fresh rfl
      cases model with
      | paymentIntent =>
          exact reply_create (isScreened.clash_create owned unknown) (isScreened.hasParent_eq owned)
      | customer =>
          have clashless : ∀ store : Store, id ∉ store.issued →
              ¬ ∃ old ∈ (store.tables .customer).rows,
                Model.customer.indexes.clash old (Model.make .customer new id world.clock) =
                  true := by
            rintro store unknown ⟨old, member, clash⟩
            have isNew : old.id = id := of_decide_eq_true clash
            exact unknown (isNew ▸ store.rowsIssued .customer old member)
          exact reply_create
            (iff_of_false (clashless _ fun known => unknown (isScreened.store.issued id known))
              (clashless _ unknown)) (isScreened.hasParent_eq owned)
      | _ => exact intends.elim
  | update model key patch =>
      cases model with
      | paymentIntent =>
          have belongs := truthful.owned _ key permitted
          exact reply_update id (isScreened.store.find_eq belongs) fun old found =>
            isScreened.clash_update found (belongs.2 old found) apart
      | _ => exact intends.elim
  | delete model key =>
      cases model with
      | paymentIntent =>
          exact reply_delete id (isScreened.store.find_eq (truthful.owned _ key permitted))
      | _ => exact intends.elim

end Screened

end Statements

/-! ## Calls -/

section Calls

variable {deployment : Deployment} {user : String} {past : History signature}
variable {world screened : World}

theorem commit_answer (world : World) {statement : Write}
    (executed : Except ServiceError (statement.Answer × Store)) :
    (world.commit statement executed).answer = executed.map Prod.fst := by
  cases executed <;> rfl

namespace Screened

/-- A call about the user's rows is answered the same. -/
theorem answers (isScreened : Screened user world screened) {call : Call} {choice : Choice}
    {served : Served signature call World Request} (truthful : Truthful user past world)
    (permitted : permitsTenant deployment user past call) (intends : call.Intends)
    (apart : HashesApart user world call)
    (performed : World.perform call choice world = some served) :
    ∃ served', World.perform call choice screened = some served' ∧
      served'.answer = served.answer := by
  cases call with
  | query asked =>
      have same := isScreened.query_eq truthful permitted intends choice.order
      by_cases rejected : choice = .reject
      · subst rejected
        obtain rfl := Option.some.inj performed
        exact ⟨_, rfl, rfl⟩
      · have answered : ∀ world : World, World.perform (.query asked) choice world =
            (asked.answer choice.order world.store).map fun answer =>
              world.reply (.ok answer) := by
          intro world
          cases choice <;> first | rfl | exact absurd rfl rejected
        rw [answered] at performed
        obtain ⟨answer, found, rfl⟩ := Option.map_eq_some_iff.mp performed
        exact ⟨screened.reply (.ok answer), by rw [answered, same, found]; rfl, rfl⟩
  | write statement =>
      cases choice with
      | reject =>
          obtain rfl := Option.some.inj performed
          exact ⟨_, rfl, rfl⟩
      | draw id =>
          simp only [World.perform, Option.ite_none_right_eq_some, Option.some.injEq] at performed
          obtain ⟨⟨draws, fresh⟩, rfl⟩ := performed
          refine ⟨_, if_pos ⟨draws, fun known => fresh (isScreened.store.issued id known)⟩, ?_⟩
          rw [commit_answer, commit_answer]
          exact isScreened.reply_eq truthful permitted intends apart fun _ => fresh
      | serve =>
          simp only [World.perform, Option.ite_none_left_eq_some, Option.some.injEq] at performed
          obtain ⟨undrawn, rfl⟩ := performed
          refine ⟨_, if_neg undrawn, ?_⟩
          rw [commit_answer, commit_answer]
          exact isScreened.reply_eq truthful permitted intends apart fun draws =>
            absurd draws undrawn
      | _ => cases performed
  | horizon lookup =>
      cases choice with
      | reject =>
          obtain rfl := Option.some.inj performed
          exact ⟨_, rfl, rfl⟩
      | serve =>
          obtain rfl := Option.some.inj performed
          exact ⟨_, rfl, isScreened.horizon_eq lookup⟩
      | _ => cases performed
  | now =>
      obtain rfl := World.perform_now performed
      cases choice with
      | serve => exact ⟨_, rfl, congrArg Except.ok isScreened.clock⟩
      | _ => cases performed
  | randomBytes size =>
      cases choice with
      | bytes drawn =>
          simp only [World.perform, Option.ite_none_right_eq_some, Option.some.injEq] at performed
          obtain ⟨isSize, rfl⟩ := performed
          exact ⟨_, if_pos isSize, rfl⟩
      | _ => cases performed
  | emit payload =>
      cases choice with
      | serve =>
          obtain rfl := Option.some.inj performed
          exact ⟨_, rfl, rfl⟩
      | _ => cases performed
  | start task =>
      cases choice with
      | serve =>
          obtain rfl := Option.some.inj performed
          exact ⟨_, rfl, rfl⟩
      | _ => cases performed
  | _ => exact intends.elim

end Screened

end Calls

/-! ## What calls keep -/

theorem homed_stable : Stable fun world => world.store.Homed where
  performs {before after performed} performs homed := by
    intro intent member
    have found : after.store.find? .paymentIntent intent.id = some intent :=
      Table.find?_key member
    by_cases known : intent.id ∈ before.store.issued
    · obtain ⟨old, oldFound, same⟩ :=
        performs.column_eq PaymentIntent.consumerId (fun _ _ => rfl) known found
      obtain ⟨owner, isOwner⟩ := homed old (Table.mem_of_find? oldFound)
      obtain ⟨owner', isOwner', -⟩ := performs.keepsConsumers old.consumerId owner isOwner
      exact ⟨owner', by rw [same]; exact isOwner'⟩
    · obtain ⟨new, createdAt, -, isNew, change⟩ := performs.created_of_unknown known found
      have same : intent.consumerId = new.consumerId := congrArg PaymentIntent.consumerId isNew
      obtain ⟨owner, isOwner⟩ := Option.isSome_iff_exists.mp change.parent
      obtain ⟨owner', isOwner', -⟩ := performs.keepsConsumers new.consumerId owner isOwner
      exact ⟨owner', by rw [same]; exact isOwner'⟩
  drifts drifts homed := by
    rw [Store.Homed, drifts.store]
    exact homed

namespace Store

theorem mem_intents {store : Store} {intent : PaymentIntent} :
    intent ∈ store.intents.rows ↔ store.find? .paymentIntent intent.id = some intent :=
  ⟨Table.find?_key, Table.mem_of_find?⟩

theorem holds_intent {store : Store} {user : String} {intent : PaymentIntent} :
    store.Holds user .paymentIntent intent ↔
      intent ∈ store.intents.rows ∧ store.belongsTo intent.consumerId user = true :=
  and_congr_left fun _ => mem_intents.symm

namespace Screened

variable {user : String} {store store' screened screened' : Store}

/-- The same change to an intent of the user, if to any. -/
theorem change (isScreened : store.Screened user screened)
    (consumers : store'.consumers = store.consumers)
    (consumers' : screened'.consumers = screened.consumers)
    (lookup : ∀ key, (store'.find? .paymentIntent key = store.find? .paymentIntent key ∧
        screened'.find? .paymentIntent key = screened.find? .paymentIntent key) ∨
      screened'.find? .paymentIntent key = store'.find? .paymentIntent key ∧
        ∀ intent, store'.find? .paymentIntent key = some intent →
          store.belongsTo intent.consumerId user = true)
    (issued : ∀ id ∈ screened'.issued, id ∈ store'.issued) (homed : store'.Homed) :
    store'.Screened user screened' where
  consumers row isUser := by
    rw [consumers, consumers']
    exact isScreened.consumers row isUser
  intents intent := by
    have owners : store'.belongsTo intent.consumerId user =
        store.belongsTo intent.consumerId user := by
      rw [belongsTo, consumers]
      rfl
    rw [mem_intents, mem_intents, owners]
    rcases lookup intent.id with ⟨same, same'⟩ | ⟨same, owned⟩
    · rw [same, same', ← mem_intents, ← mem_intents]
      exact isScreened.intents intent
    · rw [same]
      exact ⟨fun found => ⟨found, owned intent found⟩, And.left⟩
  issued := issued
  homed := homed

/-- The user is upserted in both stores. -/
theorem enroll (isScreened : store.Screened user screened) {row : Consumer}
    (upserted : Upserted store store' user row) (upserted' : Upserted screened screened' user row)
    (issued : ∀ id ∈ screened'.issued, id ∈ store'.issued) (homed : store'.Homed) :
    store'.Screened user screened' where
  consumers other isUser := by
    have named : ∀ {store : Store}, store.consumerNamed user = some row →
        (store.consumers.find? other.id = some other ↔ row = other) := by
      intro store isRow
      have same : store.consumerNamed user = some other ↔
          store.consumers.find? other.id = some other ∧ other.apisixUsername = user :=
        consumerNamed_eq_some_iff
      rw [isRow, Option.some.injEq] at same
      exact ⟨fun found => same.mpr ⟨found, isUser⟩, fun isOther => (same.mp isOther).1⟩
    rw [named upserted'.named, named upserted.named]
  intents intent := by
    have rows : store'.intents = store.intents :=
      congrFun upserted.tables Model.paymentIntent
    have rows' : screened'.intents = screened.intents :=
      congrFun upserted'.tables Model.paymentIntent
    rw [rows, rows', isScreened.intents]
    refine and_congr_right fun member => ⟨upserted.keeps.belongsTo, fun owned => ?_⟩
    -- whoever had the intent before has it still
    obtain ⟨owner, found⟩ := isScreened.homed intent member
    have before := belongsTo_iff.mpr ⟨owner, found, rfl⟩
    rwa [username_unique (upserted.keeps.belongsTo before) owned] at before
  issued := issued
  homed := homed

/-- Nothing of the user's changes in the first store. -/
theorem skip (isScreened : store.Screened user screened)
    (consumers : ∀ row : Consumer, row.apisixUsername = user →
      (store'.consumers.find? row.id = some row ↔ store.consumers.find? row.id = some row))
    (intents : ∀ intent, store'.Holds user .paymentIntent intent ↔
      store.Holds user .paymentIntent intent)
    (issued : ∀ id ∈ store.issued, id ∈ store'.issued) (homed : store'.Homed) :
    store'.Screened user screened where
  consumers row isUser := (isScreened.consumers row isUser).trans (consumers row isUser).symm
  intents intent := by
    rw [isScreened.intents, ← holds_intent, ← holds_intent, intents]
  issued id known := issued id (isScreened.issued id known)
  homed := homed

end Screened

end Store

/-! ## Steps of both worlds -/

section Steps

variable {deployment : Deployment} {user : String} {past : History signature}
variable {world world' screened screened' : World}

namespace Store.Screened

/-- An upsert of the user that yields one row in both worlds. -/
theorem performs_upsert (isScreened : world.store.Screened user screened.store)
    {credentialId : Option String} {row : Consumer}
    (performs : Performs world world' ⟨.write (.upsertConsumer user credentialId), .ok row⟩)
    (performs' :
      Performs screened screened' ⟨.write (.upsertConsumer user credentialId), .ok row⟩)
    (homed : world'.store.Homed) : world'.store.Screened user screened'.store := by
  refine isScreened.enroll performs.of_upsert performs'.of_upsert (fun id known => ?_) homed
  rcases performs'.issued_of_upsert id known with older | rfl
  · exact performs.issued id (isScreened.issued id older)
  · -- the other world may have had the row before, with its id
    obtain ⟨found, -⟩ := consumerNamed_eq_some_iff.mp performs.of_upsert.named
    exact world'.store.consumersIssued row (Table.mem_of_find? found)

/-- A creation of one row in both worlds, for the user where it is of an intent. -/
theorem performs_create (isScreened : world.store.Screened user screened.store) {model : Model}
    {new : model.New} {row : model.Row} (truthful : Truthful user past world)
    (permitted : permitsTenant deployment user past (.write (.create model new)))
    (performs : Performs world world' ⟨.write (.create model new), .ok row⟩)
    (performs' : Performs screened screened' ⟨.write (.create model new), .ok row⟩)
    (homed : world'.store.Homed) : world'.store.Screened user screened'.store := by
  obtain ⟨id, -, isRow, created⟩ := performs.of_create
  obtain ⟨id', -, isRow', created'⟩ := performs'.of_create
  obtain rfl : id' = id := by
    have keys := congrArg model.indexes.key (isRow'.symm.trans isRow)
    rwa [Model.key_make, Model.key_make] at keys
  refine isScreened.change created.consumers created'.consumers (fun key => ?_)
    (fun known isIssued => ?_) homed
  · by_cases isIntent : model = .paymentIntent
    · subst isIntent
      rw [created.lookup, created'.lookup, ← isRow, ← isRow']
      split
      · refine .inr ⟨rfl, fun intent isNew => ?_⟩
        obtain rfl := Option.some.inj isNew
        rw [isRow]
        exact truthful.enrolled _ (permitted.2 id' world.clock)
      · exact .inl ⟨rfl, rfl⟩
    · have differ : Model.paymentIntent ≠ model := fun same => isIntent same.symm
      exact .inl ⟨created.others _ differ key, created'.others _ differ key⟩
  · rw [created.issued]
    rw [created'.issued] at isIssued
    exact List.cons_subset_cons id' isScreened.issued isIssued

/-- An update to one row in both worlds, of the user's where it is an intent. -/
theorem performs_update (isScreened : world.store.Screened user screened.store) {model : Model}
    {id : String} {patch : model.Patch} {row : model.Row} (truthful : Truthful user past world)
    (permitted : permitsTenant deployment user past (.write (.update model id patch)))
    (performs : Performs world world' ⟨.write (.update model id patch), .ok row⟩)
    (performs' : Performs screened screened' ⟨.write (.update model id patch), .ok row⟩)
    (homed : world'.store.Homed) : world'.store.Screened user screened'.store := by
  obtain ⟨old, isRow, updated⟩ := performs.of_update
  obtain ⟨old', isRow', updated'⟩ := performs'.of_update
  refine isScreened.change updated.consumers updated'.consumers (fun key => ?_)
    (by rw [updated.issued, updated'.issued]; exact isScreened.issued) homed
  by_cases isIntent : model = .paymentIntent
  · subst isIntent
    rw [updated.lookup, updated'.lookup, ← isRow, ← isRow']
    split
    · refine .inr ⟨rfl, fun intent isNew => ?_⟩
      obtain rfl := Option.some.inj isNew
      rw [isRow]
      exact (truthful.owned _ id permitted).2 old updated.found
    · exact .inl ⟨rfl, rfl⟩
  · have differ : Model.paymentIntent ≠ model := fun same => isIntent same.symm
    exact .inl ⟨updated.others _ differ key, updated'.others _ differ key⟩

/-- A deletion under one id in both worlds. -/
theorem performs_delete (isScreened : world.store.Screened user screened.store) {model : Model}
    {id : String} {row : model.Row}
    (performs : Performs world world' ⟨.write (.delete model id), .ok row⟩)
    (performs' : Performs screened screened' ⟨.write (.delete model id), .ok row⟩)
    (homed : world'.store.Homed) : world'.store.Screened user screened'.store := by
  have deleted := performs.of_delete
  have deleted' := performs'.of_delete
  refine isScreened.change deleted.consumers deleted'.consumers (fun key => ?_)
    (by rw [deleted.issued, deleted'.issued]; exact isScreened.issued) homed
  by_cases isIntent : model = .paymentIntent
  · subst isIntent
    rw [deleted.lookup, deleted'.lookup]
    split
    · exact .inr ⟨rfl, by rintro intent ⟨⟩⟩
    · exact .inl ⟨rfl, rfl⟩
  · have differ : Model.paymentIntent ≠ model := fun same => isIntent same.symm
    have kept : model = .webhookEndpoint → Model.paymentIntent ≠ .webhookDelivery := by
      simp
    exact .inl ⟨deleted.others _ differ kept key, deleted'.others _ differ kept key⟩

/-- A call about the user's rows, answered the same in both worlds. -/
theorem performs (isScreened : world.store.Screened user screened.store)
    {performed : Performed signature} (truthful : Truthful user past world)
    (permitted : permitsTenant deployment user past performed.call)
    (performs : Performs world world' performed)
    (performs' : Performs screened screened' performed) :
    world'.store.Screened user screened'.store := by
  have homed := homed_stable.performs performs isScreened.homed
  by_cases effect : ∃ statement value, performed = ⟨.write statement, .ok value⟩
  · obtain ⟨statement, value, rfl⟩ := effect
    cases statement with
    | upsertConsumer name credentialId =>
        obtain rfl : name = user := permitted
        exact isScreened.performs_upsert performs performs' homed
    | create model new =>
        exact isScreened.performs_create truthful permitted performs performs' homed
    | update model id patch =>
        exact isScreened.performs_update truthful permitted performs performs' homed
    | delete model id => exact isScreened.performs_delete performs performs' homed
  · push Not at effect
    rw [performs.store_eq effect, performs'.store_eq effect]
    exact isScreened

end Store.Screened

namespace Screened

/-- A call about the user's rows can be performed alike in both worlds. -/
theorem performs (isScreened : Screened user world screened) {call : Call} {choice : Choice}
    {served : Served signature call World Request} (truthful : Truthful user past world)
    (permitted : permitsTenant deployment user past call) (intends : call.Intends)
    (apart : HashesApart user world call)
    (performed : World.perform call choice world = some served) :
    ∃ served', World.perform call choice screened = some served' ∧
      served'.answer = served.answer ∧ Screened user served.state served'.state := by
  obtain ⟨served', performed', sameAnswer⟩ :=
    isScreened.answers truthful permitted intends apart performed
  have performs := Performs.of_perform performed
  have performs' : Performs screened served'.state ⟨call, served.answer⟩ :=
    ⟨choice, served', performed', sameAnswer, rfl⟩
  obtain ⟨ledger, accounts, clock⟩ := performs.surroundings
  obtain ⟨ledger', accounts', clock'⟩ := performs'.surroundings
  refine ⟨served', performed', sameAnswer, ?_, ?_, ?_, ?_, ?_⟩
  · exact isScreened.store.performs truthful permitted performs performs'
  · rw [ledger, ledger', isScreened.ledger]
  · rw [accounts, accounts', isScreened.accounts]
  · rw [clock, clock', isScreened.clock]
  · rw [intends.flagless.running performed, intends.flagless.running performed',
      isScreened.running]

/-- A call that leaves the user's rows and the flags alone. -/
theorem skip (isScreened : Screened user world screened) {call : Call} {choice : Choice}
    {served : Served signature call World Request}
    (performed : World.perform call choice world = some served) (flagless : call.Flagless)
    (consumers : ∀ row : Consumer, row.apisixUsername = user →
      (served.state.store.consumers.find? row.id = some row ↔
        world.store.consumers.find? row.id = some row))
    (intents : ∀ intent, served.state.store.Holds user .paymentIntent intent ↔
      world.store.Holds user .paymentIntent intent) :
    Screened user served.state screened := by
  have performs := Performs.of_perform performed
  obtain ⟨ledger, accounts, clock⟩ := performs.surroundings
  refine ⟨?_, ?_, ?_, ?_, ?_⟩
  · exact isScreened.store.skip consumers intents performs.issued
      (homed_stable.performs performs isScreened.store.homed)
  · rw [ledger, isScreened.ledger]
  · rw [accounts, isScreened.accounts]
  · rw [clock, isScreened.clock]
  · rw [flagless.running performed, isScreened.running]

theorem move (isScreened : Screened user world screened) {move : World.Move}
    (moved : World.move move world = some world') :
    ∃ screened', World.move move screened = some screened' ∧ Screened user world' screened' := by
  cases move with
  | pass milliseconds =>
      obtain rfl := Option.some.inj moved
      refine ⟨_, rfl, isScreened.store, isScreened.ledger, isScreened.accounts, ?_,
        isScreened.running⟩
      exact congrArg (· + milliseconds) isScreened.clock
  | land tx =>
      simp only [World.move, Option.ite_none_right_eq_some, Option.map_eq_some_iff] at moved
      obtain ⟨now, ledger, inserted, rfl⟩ := moved
      refine ⟨{ screened with ledger }, ?_, isScreened.store, rfl, isScreened.accounts,
        isScreened.clock, isScreened.running⟩
      rw [World.move, isScreened.clock, isScreened.ledger, if_pos now, inserted]
      rfl
  | fund network account =>
      obtain rfl := Option.some.inj moved
      refine ⟨_, rfl, isScreened.store, isScreened.ledger, ?_, isScreened.clock,
        isScreened.running⟩
      exact congrArg ((network, account) :: ·) isScreened.accounts

end Screened

end Steps

end CosmosPay
