import CosmosPay.Awaiting.Execution
import CosmosPay.Idempotence
import Mathlib.Data.Fintype.EquivFin

/-!
# Creation, all or nothing

A create request can fail at many points before its insertion, and at one point after it:
the QR code of the URI is drawn last.  So a request is atomic where every URI that it may
store can be drawn.
-/

namespace CosmosPay

open Awaiting Program Tables PaymentIntents

/-! ## The URI of a request -/

/-- The query of the parameters that are given. -/
def sep7Query (params : List (String × Option String)) : String :=
  Text.QueryParams.serialize
    (params.filterMap fun (name, value) => value.map fun value => (name, value))

def txUri (dto : CreateTxPaymentIntentDto) (xdr : String) : String :=
  "web+stellar:tx?" ++ sep7Query
    [("xdr", some xdr), ("callback", truthy dto.callback.toOption),
      ("msg", truthy dto.msg.toOption)]

/-- A native asset is not named. -/
def payUri (dto : CreatePayPaymentIntentDto) (asset : ResolvedAsset) (memo : String) : String :=
  "web+stellar:pay?" ++ sep7Query
    [("destination", some dto.destination), ("amount", truthy dto.amount.toOption),
      ("asset_code", if asset.code = "native" then none else some asset.code),
      ("asset_issuer", if asset.code = "native" then none else truthy asset.issuer),
      ("memo", some memo), ("memo_type", some "MEMO_ID"),
      ("callback", truthy dto.callback.toOption), ("msg", truthy dto.msg.toOption)]

theorem length_le_sep7Query {params : List (String × Option String)} {name value : String}
    (given : (name, some value) ∈ params) :
    (Text.encodeComponent value).length ≤ (sep7Query params).length := by
  have member : (name, value) ∈ params.filterMap fun (name, value) =>
      value.map fun value => (name, value) :=
    List.mem_filterMap.mpr ⟨(name, some value), given, rfl⟩
  exact Text.length_le_serialize member

/-- A URI is at least as long as the encoding of its callback. -/
theorem length_le_payUri {dto : CreatePayPaymentIntentDto} {callback : String}
    (given : truthy dto.callback.toOption = some callback) (asset : ResolvedAsset)
    (memo : String) :
    (Text.encodeComponent callback).length ≤ (payUri dto asset memo).length := by
  -- `rw [payUri]` would compare two long concatenations
  delta payUri
  rw [String.length_append, given]
  refine Nat.le_add_left_of_le (length_le_sep7Query (?_ : ("callback", some callback) ∈ _))
  simp

theorem txUri_eq (dto : CreateTxPaymentIntentDto) (xdr : String) :
    "web+stellar:tx?" ++ (appendSep7Extras [("xdr", xdr)] dto.msg dto.callback).serialize =
      txUri dto xdr := by
  unfold txUri sep7Query appendSep7Extras
  cases truthy dto.callback.toOption <;> cases truthy dto.msg.toOption <;>
    simp [Text.QueryParams.set]

theorem payUri_eq (dto : CreatePayPaymentIntentDto) (asset : ResolvedAsset) (memo : String) :
    "web+stellar:pay?" ++ (payParams dto asset memo).serialize = payUri dto asset memo := by
  delta payUri
  unfold sep7Query payParams appendSep7Extras
  cases truthy dto.amount.toOption <;> cases truthy dto.callback.toOption <;>
    cases truthy dto.msg.toOption <;> by_cases native : asset.code = "native" <;>
    cases truthy asset.issuer <;> simp [Text.QueryParams.set, native]

/-! ## The URIs that a request may store -/

/-- A memo that a request may come to. -/
def MayResolve : (provided : Field String) → (memo : String) → Prop
  | .value provided, memo => memo = provided ∧ AcceptedMemo memo
  | .null, _ => False
  | .undefined, memo => ∃ bytes : List UInt8, bytes.length = 8 ∧ memo = (bigEndian bytes).repr

/-- The consumer of that name has an intent with the memo. -/
def Store.UsesMemo (store : Store) (username memo : String) : Prop :=
  ∃ id row, store.find? .paymentIntent id = some row ∧
    store.belongsTo row.consumerId username = true ∧ row.memo = memo

section Condition

variable (deployment : Deployment) (world : World) (consumer : GatewayConsumer)

/-- The transaction that a `tx` request asks the SDK to build. -/
def envelopeOf (dto : CreateTxPaymentIntentDto) (account : Account) (asset : ResolvedAsset)
    (memo : String) : EnvelopeRequest where
  account := account
  fee := deployment.config.baseFee
  networkPassphrase := (resolveNetwork deployment consumer).passphrase
  destination := dto.destination
  amount := dto.amount
  asset := asset.asset
  memo := memo
  timeoutSeconds := deployment.config.timeoutSeconds
  now := world.clock

/-- The asset and the memo are accepted, the consumer does not use the memo yet, the source
account exists, and its transaction can be built. -/
def MayStoreTx (dto : CreateTxPaymentIntentDto) (uri : String) : Prop :=
  ∃ asset memo account xdr,
    resolveAsset deployment dto.assetCode dto.assetIssuer = .ok asset ∧
      MayResolve dto.memo memo ∧ ¬ world.store.UsesMemo consumer.username memo ∧
      world.account? (resolveNetwork deployment consumer) dto.source = some account ∧
      deployment.libraries.buildEnvelope
        (envelopeOf deployment world consumer dto account asset memo) = .ok xdr ∧
      uri = txUri dto xdr

/-- The asset and the memo are accepted, and the consumer does not use the memo yet. -/
def MayStorePay (dto : CreatePayPaymentIntentDto) (uri : String) : Prop :=
  ∃ asset memo, resolveAsset deployment dto.assetCode dto.assetIssuer = .ok asset ∧
    MayResolve dto.memo memo ∧ ¬ world.store.UsesMemo consumer.username memo ∧
    uri = payUri dto asset memo

/-- The URI can be drawn as a QR code. -/
def Drawable (uri : String) : Prop :=
  ∃ qr, deployment.libraries.toDataURL uri = .ok qr

end Condition

/-! ## What has been done so far -/

/-- The calls have inserted no intent and emitted no event: every call that might have has
failed. -/
def Uncreated (past : History signature) : Prop :=
  ∀ performed ∈ past, performed.call.Peripheral ∨ ∃ err, performed.answer = .error err

theorem Uncreated.cons {past : History signature} {call : Call}
    {answer : Except ServiceError call.Answer} (uncreated : Uncreated past)
    (harmless : call.Peripheral ∨ ∃ err, answer = .error err) :
    Uncreated (⟨call, answer⟩ :: past) := by
  intro performed member
  rcases List.mem_cons.mp member with rfl | older
  · exact harmless
  · exact uncreated performed older

/-- Calls of the create endpoints. -/
def Call.OfCreation : Call → Prop
  | .write (.upsertConsumer _ _) => True
  | .write (.create .paymentIntent _) => True
  | .query _ => True
  | .horizon _ => True
  | .now => True
  | .randomBytes _ => True
  | .emit _ => True
  | _ => False

/-- The state of a create request that started in `world`: intents are only added. -/
structure Ahead (world state : World) : Prop where
  intents : ∀ id row, world.store.find? .paymentIntent id = some row →
    state.store.find? .paymentIntent id = some row
  consumers : world.store.KeepsConsumers state.store
  accounts : state.accounts = world.accounts
  clock : state.clock = world.clock

/-- What an answer tells about the world in which the request started. -/
def Call.Tells (world : World) : (call : Call) → call.Answer → Prop
  | .write (.upsertConsumer username _), owner =>
      ∀ consumerId, world.store.belongsTo consumerId username = true → consumerId = owner.id
  | .write (.create .paymentIntent new), row => row.uri = new.uri
  | .query (.intentByMemo consumerId memo), found => found = none →
      ∀ id row, world.store.find? .paymentIntent id = some row →
        ¬ (row.consumerId = consumerId ∧ row.memo = memo)
  | .horizon (.loadAccount network source), account =>
      world.account? network source = some account
  | .now, clock => clock = world.clock
  | .randomBytes size, bytes => bytes.length = size
  | _, _ => True

/-- Nothing is told by errors, but there are none of events. -/
structure Told (world : World) (performed : Performed signature) : Prop where
  tells : ∀ answer, performed.answer = .ok answer → performed.call.Tells world answer
  emitted : ∀ payload err, performed ≠ ⟨.emit payload, .error err⟩

theorem Ahead.refl (world : World) : Ahead world world :=
  ⟨fun _ _ found => found, fun _ row found => ⟨row, found, rfl⟩, rfl, rfl⟩

theorem Ahead.performs {world before after : World} {performed : Performed signature}
    (ahead : Ahead world before) (ofCreation : performed.call.OfCreation)
    (performs : Performs before after performed) : Ahead world after := by
  obtain ⟨-, accounts, clock⟩ := performs.surroundings
  refine ⟨fun id row stored => ?_, ahead.consumers.trans performs.keepsConsumers,
    accounts.trans ahead.accounts, clock.trans ahead.clock⟩
  have found := ahead.intents id row stored
  cases performs.rows .paymentIntent with
  | kept same => rwa [same]
  | created new drawn createdAt _ fresh change =>
      have differ : drawn ≠ id := by
        rintro rfl
        exact fresh (Store.issued_of_find? found)
      rwa [change.lookup, if_neg differ]
  | updated key patch old isUpdate _ =>
      rw [isUpdate] at ofCreation
      exact ofCreation.elim
  | deleted key old isDelete _ =>
      rw [isDelete] at ofCreation
      exact ofCreation.elim
  | cascaded key old isDelivery _ _ => cases isDelivery

theorem Ahead.tells {world before after : World} {call : Call} {answer : call.Answer}
    (ahead : Ahead world before) (performs : Performs before after ⟨call, .ok answer⟩) :
    call.Tells world answer := by
  cases call with
  | write statement =>
      cases statement with
      | upsertConsumer username credentialId =>
          have upserted := performs.of_upsert
          intro consumerId owned
          have isOwner : after.store.belongsTo answer.id username = true :=
            Store.belongsTo_iff.mpr ⟨answer, Store.consumerNamed_eq_some_iff.mp upserted.named⟩
          exact Store.consumer_unique
            (upserted.keeps.belongsTo (ahead.consumers.belongsTo owned)) isOwner
      | create model new =>
          cases model with
          | paymentIntent =>
              obtain ⟨drawn, -, isRow, -⟩ := performs.of_create
              rw [isRow]
              rfl
          | _ => trivial
      | _ => trivial
  | query asked =>
      cases asked with
      | intentByMemo consumerId memo =>
          rintro rfl id row stored isRow
          obtain ⟨-, order, missed⟩ := performs.of_query
          have absent := List.find?_eq_none.mp (Option.some.inj missed) row
            (Table.mem_of_find? (ahead.intents id row stored))
          simp [isRow] at absent
      | _ => trivial
  | horizon lookup =>
      cases lookup with
      | loadAccount network source =>
          obtain ⟨-, loaded⟩ := performs.of_horizon
          have sameAccount : before.account? network source = world.account? network source := by
            rw [World.account?, ahead.accounts]
            rfl
          simp only [HorizonCall.answer, sameAccount] at loaded
          split at loaded
          · rename_i account found
            rw [← Except.ok.inj loaded]
            exact found
          · cases loaded
      | _ => trivial
  | now => exact performs.of_now.trans ahead.clock
  | randomBytes size =>
      obtain ⟨choice, served, made, isAnswer, -⟩ := performs
      cases choice with
      | bytes drawn =>
          simp only [World.perform, Option.ite_none_right_eq_some, Option.some.injEq] at made
          obtain ⟨isSize, rfl⟩ := made
          rw [← Except.ok.inj isAnswer]
          exact isSize
      | _ => cases made
  | _ => trivial

theorem Ahead.told {world before after : World} {performed : Performed signature}
    (ahead : Ahead world before) (performs : Performs before after performed) :
    Told world performed := by
  obtain ⟨call, result⟩ := performed
  cases result with
  | error err =>
      refine ⟨by rintro answer ⟨⟩, ?_⟩
      rintro payload _ ⟨⟩
      obtain ⟨choice, served, made, isError, -⟩ := performs
      cases choice <;> cases made
      cases isError
  | ok answer =>
      refine ⟨fun given answered => ?_, by rintro payload err ⟨⟩⟩
      rw [← Except.ok.inj answered]
      exact ahead.tells performs

/-! ## The endpoints -/

/-- An exception leaves nothing behind. -/
def ensuresAtomic {α : Type} (past : History signature) (outcome : Except ServiceError α) : Prop :=
  ∀ err, outcome = .error err → Uncreated past

theorem Uncreated.ensures {α : Type} {past : History signature} {outcome : Except ServiceError α}
    (uncreated : Uncreated past) : ensuresAtomic past outcome :=
  fun _ _ => uncreated

section Endpoints

variable {deployment : Deployment} {world : World} {consumer : GatewayConsumer}
variable {past : History signature}

theorem atomic_withQr (intent : PaymentIntent) (uncreated : Uncreated past) :
    (withQr deployment intent).Conforms (Told world) (fun _ call => call.OfCreation)
      ensuresAtomic past :=
  conforms_ofExcept.mpr uncreated.ensures

theorem atomic_existingView (consumerId memo : String) (uncreated : Uncreated past) :
    (existingView deployment consumerId memo).Conforms (Told world)
      (fun _ call => call.OfCreation) ensuresAtomic past := by
  have harmless : (Call.query (.intentByMemo consumerId memo)).Peripheral := trivial
  refine conforms_call_bind.mpr ⟨trivial, fun err _ => (uncreated.cons (.inl harmless)).ensures,
    fun found _ => ?_⟩
  split
  · exact atomic_withQr _ (uncreated.cons (.inl harmless))
  · exact (uncreated.cons (.inl harmless)).ensures

/-- After the insertion nothing fails any more, if the URI can be drawn. -/
theorem atomic_finishCreate {data : NewPaymentIntent} (uncreated : Uncreated past)
    (drawable : Drawable deployment data.uri) :
    (finishCreate deployment consumer data).Conforms (Told world)
      (fun _ call => call.OfCreation) ensuresAtomic past := by
  have harmless : Call.now.Peripheral := trivial
  unfold finishCreate
  rw [conforms_bind]
  refine conforms_call_bind.mpr ⟨trivial, fun err _ => (uncreated.cons (.inl harmless)).ensures,
    fun now _ => ?_⟩
  have timed : Uncreated (⟨.now, .ok now⟩ :: past) := uncreated.cons (.inl harmless)
  refine conforms_call_tryCatch.mpr ⟨trivial, fun err _ => ?_, fun row told => ?_⟩
  · split
    · exact atomic_existingView _ _ (timed.cons (.inr ⟨err, rfl⟩))
    · exact (timed.cons (.inr ⟨err, rfl⟩)).ensures
  · have isUri : row.uri = data.uri := told.tells row rfl
    obtain ⟨qr, drawn⟩ := drawable
    refine (andThen_ok _ _).mpr ?_
    refine conforms_call_bind.mpr ⟨trivial, fun err told => absurd rfl (told.emitted _ _),
      fun _ _ => ?_⟩
    rw [withQr, conforms_ofExcept, isUri, drawn]
    rintro err ⟨⟩

theorem atomic_resolveMemo (provided : Field String) (uncreated : Uncreated past) :
    (resolveMemo provided).Conforms (Told world) (fun _ call => call.OfCreation)
      (fun later outcome => Uncreated later ∧
        ∀ memo, outcome = .ok memo → MayResolve provided memo) past := by
  cases provided with
  | undefined =>
      have harmless : (Call.randomBytes 8).Peripheral := trivial
      refine conforms_call_bind.mpr ⟨trivial, fun err _ => ?_, fun bytes told => ?_⟩
      · exact ⟨uncreated.cons (.inl harmless), by rintro memo ⟨⟩⟩
      · refine ⟨uncreated.cons (.inl harmless), ?_⟩
        rintro memo ⟨⟩
        exact ⟨bytes, told.tells bytes rfl, rfl⟩
  | null => exact ⟨uncreated, by rintro memo ⟨⟩⟩
  | value provided =>
      simp only [resolveMemo]
      split
      · rename_i accepted
        refine ⟨uncreated, ?_⟩
        rintro memo ⟨⟩
        exact ⟨rfl, accepted⟩
      · exact ⟨uncreated, by rintro memo ⟨⟩⟩

/-- The steps that both endpoints begin with, up to the idempotency lookup. -/
theorem atomic_prepare {next : Consumer → ResolvedAsset → String → Promise PaymentIntentView}
    {assetCode assetIssuer memo : Field String}
    (continues : ∀ later owner asset resolved, Uncreated later →
      resolveAsset deployment assetCode assetIssuer = .ok asset → MayResolve memo resolved →
      ¬ world.store.UsesMemo consumer.username resolved →
      (next owner asset resolved).Conforms (Told world) (fun _ call => call.OfCreation)
        ensuresAtomic later) :
    (do let localConsumer ← resolveConsumer consumer
        let asset ← Promise.ofExcept (resolveAsset deployment assetCode assetIssuer)
        let memo ← resolveMemo memo
        match ← findByMemo localConsumer.id memo with
        | some existing => withQr deployment existing
        | none => next localConsumer asset memo : Promise PaymentIntentView).Conforms
      (Told world) (fun _ call => call.OfCreation) ensuresAtomic [] := by
  have nothing : Uncreated [] := by rintro performed ⟨⟩
  have upserts : (Call.write (.upsertConsumer consumer.username
      consumer.credentialId)).Peripheral := trivial
  refine conforms_call_bind.mpr ⟨trivial, fun err _ => (nothing.cons (.inl upserts)).ensures,
    fun owner toldOwner => ?_⟩
  have upserted : Uncreated [⟨.write (.upsertConsumer consumer.username consumer.credentialId),
      .ok owner⟩] := nothing.cons (.inl upserts)
  rw [conforms_bind, conforms_ofExcept]
  cases isAsset : resolveAsset deployment assetCode assetIssuer with
  | error err => exact upserted.ensures
  | ok asset =>
      refine (andThen_ok _ _).mpr ?_
      rw [conforms_bind]
      refine (atomic_resolveMemo memo upserted).ensuring fun later outcome resolves => ?_
      obtain ⟨uncreated, isMemo⟩ := resolves
      cases outcome with
      | error err => exact uncreated.ensures
      | ok resolved =>
          have looksUp : (Call.query (.intentByMemo owner.id resolved)).Peripheral := trivial
          refine (andThen_ok _ _).mpr ?_
          refine conforms_call_bind.mpr ⟨trivial,
            fun err _ => (uncreated.cons (.inl looksUp)).ensures, fun found toldFound => ?_⟩
          split
          · exact atomic_withQr _ (uncreated.cons (.inl looksUp))
          · refine continues _ owner asset resolved (uncreated.cons (.inl looksUp)) isAsset
              (isMemo resolved rfl) ?_
            -- a row with the memo would be the owner's, and the lookup has found none
            rintro ⟨id, row, stored, owned, isRow⟩
            exact toldFound.tells none rfl rfl id row stored
              ⟨toldOwner.tells owner rfl row.consumerId owned, isRow⟩

theorem atomic_loadAccount (network : StellarNetwork) (source : String)
    (uncreated : Uncreated past) :
    (loadAccount network source).Conforms (Told world) (fun _ call => call.OfCreation)
      (fun later outcome => Uncreated later ∧
        ∀ account, outcome = .ok account → world.account? network source = some account) past := by
  have harmless : (Call.horizon (.loadAccount network source)).Peripheral := trivial
  unfold loadAccount
  rw [conforms_tryCatch]
  refine ⟨trivial, fun answer told => ?_⟩
  cases answer with
  | error err =>
      refine (orElse_error _ err).mpr ?_
      split <;> exact ⟨uncreated.cons (.inl harmless), by rintro account ⟨⟩⟩
  | ok account =>
      refine ⟨uncreated.cons (.inl harmless), ?_⟩
      rintro _ ⟨⟩
      exact told.tells account rfl

theorem atomic_createPay (dto : CreatePayPaymentIntentDto)
    (drawable : ∀ uri, MayStorePay deployment world consumer dto uri → Drawable deployment uri) :
    (createPay deployment consumer dto).Conforms (Told world) (fun _ call => call.OfCreation)
      ensuresAtomic [] := by
  refine atomic_prepare fun later owner asset memo uncreated isAsset isMemo unused => ?_
  refine atomic_finishCreate uncreated (drawable _ ⟨asset, memo, isAsset, isMemo, unused, ?_⟩)
  exact payUri_eq dto asset memo

theorem atomic_createTx (dto : CreateTxPaymentIntentDto)
    (drawable : ∀ uri, MayStoreTx deployment world consumer dto uri → Drawable deployment uri) :
    (createTx deployment consumer dto).Conforms (Told world) (fun _ call => call.OfCreation)
      ensuresAtomic [] := by
  refine atomic_prepare fun later owner asset memo uncreated isAsset isMemo unused => ?_
  rw [conforms_bind]
  refine (atomic_loadAccount _ _ uncreated).ensuring fun later outcome loads => ?_
  obtain ⟨uncreated, funded⟩ := loads
  cases outcome with
  | error err => exact uncreated.ensures
  | ok account =>
      have harmless : Call.now.Peripheral := trivial
      refine (andThen_ok _ _).mpr ?_
      refine conforms_call_bind.mpr ⟨trivial, fun err _ => (uncreated.cons (.inl harmless)).ensures,
        fun now toldNow => ?_⟩
      have timed : Uncreated (⟨.now, .ok now⟩ :: later) := uncreated.cons (.inl harmless)
      obtain rfl : now = world.clock := toldNow.tells now rfl
      rw [conforms_bind, conforms_ofExcept]
      cases isBuilt : deployment.libraries.buildEnvelope _ with
      | error err => exact timed.ensures
      | ok xdr =>
          refine (andThen_ok _ _).mpr (atomic_finishCreate timed (drawable _ ?_))
          exact ⟨asset, memo, account, xdr, isAsset, isMemo, unused, funded account rfl, isBuilt,
            txUri_eq dto xdr⟩

/-! ## A URI that cannot be drawn -/

/-- An id that has not been drawn, and that no intent has for its owner. -/
theorem exists_fresh (store : Store) :
    ∃ id, id ∉ store.issued ∧ ∀ key row, store.find? .paymentIntent key = some row →
      row.consumerId ≠ id := by
  obtain ⟨id, fresh⟩ := Infinite.exists_notMem_finset
    (store.issued ++ store.intents.rows.map PaymentIntent.consumerId).toFinset
  simp only [List.toFinset_append, Finset.mem_union, List.mem_toFinset, not_or] at fresh
  refine ⟨id, fresh.1, ?_⟩
  rintro key row stored rfl
  exact fresh.2 (List.mem_map_of_mem (Table.mem_of_find? stored))

/-- The caller's row, with which no unused memo is taken. -/
theorem exists_upserted (world : World) (consumer : GatewayConsumer) :
    ∃ id owner store, id ∉ world.store.issued ∧
      world.store.upsertConsumer consumer.username consumer.credentialId id = .ok (owner, store) ∧
      store.tables = world.store.tables ∧ (store.consumers.find? owner.id).isSome = true ∧
      ∀ memo, ¬ world.store.UsesMemo consumer.username memo →
        ∀ row ∈ store.intents.rows, ¬ (row.consumerId = owner.id ∧ row.memo = memo) := by
  obtain ⟨id, fresh, unowned⟩ := exists_fresh world.store
  obtain ⟨⟨owner, store⟩, executed⟩ :=
    Store.upsertConsumer_isOk consumer.username consumer.credentialId fresh
  have upserted := Store.upsertConsumer_eq_ok executed
  have present := (Store.consumerNamed_eq_some_iff.mp upserted.named).1
  refine ⟨id, owner, store, fresh, executed, upserted.tables, by simp [present], ?_⟩
  rintro memo unused row member ⟨isOwner, isMemo⟩
  have stored : world.store.find? .paymentIntent row.id = some row := by
    have inTable : row ∈ world.store.intents.rows := by
      rwa [Store.intents, upserted.tables] at member
    exact Table.find?_key inTable
  rcases Store.belongsTo_of_upsertConsumer executed with isDrawn | owned
  · exact unowned row.id row stored (isOwner.trans isDrawn)
  · refine unused ⟨row.id, row, stored, ?_, isMemo⟩
    rwa [isOwner]

theorem ends_finishCreate {data : NewPaymentIntent} {err : ServiceError}
    (undrawable : deployment.libraries.toDataURL data.uri = .error err)
    (parent : (world.store.consumers.find? data.consumerId).isSome = true)
    (free : ∀ row ∈ world.store.intents.rows,
      ¬ (row.consumerId = data.consumerId ∧ row.memo = data.memo)) :
    ∃ row later state, Ends (service deployment) past world (finishCreate deployment consumer data)
      (.error err) (⟨.emit ⟨consumer.username, .paymentIntentCreated, row⟩, .ok ()⟩ :: later)
      state := by
  obtain ⟨id, fresh, -⟩ := exists_fresh world.store
  let new : NewPaymentIntent := { data with
    expiresAt := data.expiresAt.getD (world.clock + deployment.config.ttlSeconds * 1000) }
  have unclashing : ∀ old ∈ world.store.intents.rows,
      intentIndexes.clash old (Model.make .paymentIntent new id world.clock) = false := by
    intro old member
    have otherId : old.id ≠ id := by
      rintro rfl
      exact fresh (world.store.rowsIssued .paymentIntent old member)
    have otherKey := free old member
    simp only [not_and] at otherKey
    simpa [intentIndexes, Model.make, otherId, new] using otherKey
  have creates : ∃ store, world.store.create .paymentIntent new id world.clock =
      .ok (Model.make .paymentIntent new id world.clock, store) :=
    Store.create_isOk unclashing parent
  obtain ⟨store, created⟩ := creates
  let row : PaymentIntent := Model.make .paymentIntent new id world.clock
  have executed : Write.execute (.create .paymentIntent new) world.store id world.clock =
      .ok (row, store) := created
  have persisted : Ends (service deployment) past world (persist deployment data)
      (.ok (some row)) _ { world with store } :=
    Ends.bind (ends_call perform_clock)
      (((ends_call (perform_draw_ok rfl fresh executed)).map some).tryCatch _)
  have announced : ∀ past state, Ends (service deployment) past state
      (do emit consumer.username .paymentIntentCreated row
          withQr deployment row : Promise PaymentIntentView) (.error err)
      (⟨.emit ⟨consumer.username, .paymentIntentCreated, row⟩, .ok ()⟩ :: past) state := by
    intro past state
    have isDrawn : withQr deployment row = Program.done (.error err) := by
      have isUri : row.uri = data.uri := rfl
      rw [withQr, Promise.ofExcept, isUri, undrawable]
      rfl
    rw [isDrawn]
    exact Ends.bind (ends_call (perform_emit _)) (ends_done _)
  exact ⟨row, _, _, Ends.bind persisted (announced _ _)⟩

/-- The program may announce an intent and then fail. -/
def MayAnnounceAndFail (deployment : Deployment) (consumer : GatewayConsumer)
    (past : History signature) (world : World) (program : Promise PaymentIntentView) : Prop :=
  ∃ err row later state, Ends (service deployment) past world program (.error err)
    (⟨.emit ⟨consumer.username, .paymentIntentCreated, row⟩, .ok ()⟩ :: later) state

theorem MayAnnounceAndFail.after {α : Type} {program : Promise α} {value : α}
    {next : α → Promise PaymentIntentView} {past past' : History signature} {world world' : World}
    (ends : Ends (service deployment) past world program (.ok value) past' world')
    (fails : MayAnnounceAndFail deployment consumer past' world' (next value)) :
    MayAnnounceAndFail deployment consumer past world (program >>= next) := by
  obtain ⟨err, row, later, state, failed⟩ := fails
  exact ⟨err, row, later, state, Ends.bind ends failed⟩

theorem ends_resolveMemo {provided : Field String} {memo : String}
    (resolves : MayResolve provided memo) :
    ∃ past', Ends (service deployment) past world (resolveMemo provided) (.ok memo) past'
      world := by
  cases provided with
  | undefined =>
      obtain ⟨bytes, isSize, rfl⟩ := resolves
      exact ⟨_, Ends.bind (ends_call (perform_bytes isSize)) (ends_done _)⟩
  | null => exact resolves.elim
  | value provided =>
      obtain ⟨rfl, accepted⟩ := resolves
      refine ⟨past, ?_⟩
      simp only [resolveMemo]
      rw [if_pos ⟨accepted.1, accepted.2⟩]
      exact ends_done _

theorem ends_prepare {next : Consumer → ResolvedAsset → String → Promise PaymentIntentView}
    {assetCode assetIssuer provided : Field String} {asset : ResolvedAsset} {memo : String}
    (isAsset : resolveAsset deployment assetCode assetIssuer = .ok asset)
    (resolves : MayResolve provided memo)
    (unused : ¬ world.store.UsesMemo consumer.username memo)
    (continues : ∀ past owner store, (store.consumers.find? owner.id).isSome = true →
      (∀ row ∈ store.intents.rows, ¬ (row.consumerId = owner.id ∧ row.memo = memo)) →
      MayAnnounceAndFail deployment consumer past { world with store } (next owner asset memo)) :
    MayAnnounceAndFail deployment consumer [] world
      (do let localConsumer ← resolveConsumer consumer
          let asset ← Promise.ofExcept (resolveAsset deployment assetCode assetIssuer)
          let memo ← resolveMemo provided
          match ← findByMemo localConsumer.id memo with
          | some existing => withQr deployment existing
          | none => next localConsumer asset memo : Promise PaymentIntentView) := by
  obtain ⟨id, owner, store, fresh, upserted, -, present, unclashing⟩ :=
    exists_upserted world consumer
  have free := unclashing memo unused
  have missed : Query.answer (.intentByMemo owner.id memo) [] store = some none := by
    refine congrArg some (List.find?_eq_none.mpr fun row member => ?_)
    simpa using free row member
  obtain ⟨past, resolved⟩ : ∃ past, Ends (service deployment)
      [⟨.write (.upsertConsumer consumer.username consumer.credentialId), .ok owner⟩]
      { world with store } (resolveMemo provided) (.ok memo) past { world with store } :=
    ends_resolveMemo resolves
  have executed : Write.execute (.upsertConsumer consumer.username consumer.credentialId)
      world.store id world.clock = .ok (owner, store) := upserted
  refine .after (ends_call (perform_draw_ok rfl fresh executed)) ?_
  rw [isAsset]
  refine .after (ends_done (.ok asset)) (.after resolved ?_)
  exact .after (ends_call (perform_query_ok missed)) (continues _ owner store present free)

theorem fails_createPay {dto : CreatePayPaymentIntentDto} {uri : String} {err : ServiceError}
    (stores : MayStorePay deployment world consumer dto uri)
    (undrawable : deployment.libraries.toDataURL uri = .error err) :
    MayAnnounceAndFail deployment consumer [] world (createPay deployment consumer dto) := by
  obtain ⟨asset, memo, isAsset, resolves, unused, rfl⟩ := stores
  refine ends_prepare isAsset resolves unused fun past owner store present free => ?_
  rw [← payUri_eq] at undrawable
  exact ⟨err, ends_finishCreate undrawable present free⟩

theorem fails_createTx {dto : CreateTxPaymentIntentDto} {uri : String} {err : ServiceError}
    (stores : MayStoreTx deployment world consumer dto uri)
    (undrawable : deployment.libraries.toDataURL uri = .error err) :
    MayAnnounceAndFail deployment consumer [] world (createTx deployment consumer dto) := by
  obtain ⟨asset, memo, account, xdr, isAsset, resolves, unused, funded, built, rfl⟩ := stores
  refine ends_prepare isAsset resolves unused fun past owner store present free => ?_
  rw [← txUri_eq] at undrawable
  have loaded : HorizonCall.answer
      (.loadAccount (resolveNetwork deployment consumer) dto.source) { world with store } =
        .ok account := by
    have found : World.account? { world with store } (resolveNetwork deployment consumer)
        dto.source = some account := funded
    simp only [HorizonCall.answer, found]
  have envelope : ∀ past state, Ends (service deployment) past state
      (Promise.ofExcept (deployment.libraries.buildEnvelope
        (envelopeOf deployment world consumer dto account asset memo))) (.ok xdr) past state := by
    intro past state
    rw [Promise.ofExcept, built]
    exact ends_done _
  refine .after ((ends_call (perform_horizon_ok loaded)).tryCatch _)
    (.after (ends_call perform_clock) (.after (envelope _ _) ?_))
  exact ⟨err, ends_finishCreate undrawable present free⟩

/-! ## Atomicity -/

/-- If the program, served alone, ends with an exception, then it has emitted no event and
inserted no intent, and all intents are as they were. -/
def Atomic (deployment : Deployment) (world : World) (program : Promise PaymentIntentView) :
    Prop :=
  ∀ choices execution err, program.execute (service deployment) choices world = some execution →
    execution.outcome = .error err → Uncreated execution.past ∧
      ∀ id, (World.store execution.state).find? .paymentIntent id =
        world.store.find? .paymentIntent id

theorem Performs.intents_of_harmless {before after : World} {performed : Performed signature}
    (performs : Performs before after performed)
    (harmless : performed.call.Peripheral ∨ ∃ err, performed.answer = .error err) (id : String) :
    after.store.find? .paymentIntent id = before.store.find? .paymentIntent id := by
  have ineffective : ∀ (call : Call) (answer : call.Answer),
      performed = ⟨call, .ok answer⟩ → call.Peripheral := by
    rintro call answer rfl
    rcases harmless with peripheral | ⟨err, isError⟩
    · exact peripheral
    · cases isError
  cases performs.rows .paymentIntent with
  | kept same => exact same id
  | created _ _ _ isCreate => exact (ineffective _ _ isCreate).elim
  | updated _ _ _ isUpdate => exact (ineffective _ _ isUpdate).elim
  | deleted _ _ isDelete => exact (ineffective _ _ isDelete).elim
  | cascaded _ _ isDelivery => cases isDelivery

theorem intents_of_uncreated {α : Type} {program : Promise α} {choices : List Choice}
    {execution : Execution (service deployment) α}
    (executed : program.execute (service deployment) choices world = some execution)
    (uncreated : Uncreated execution.past) (id : String) :
    (World.store execution.state).find? .paymentIntent id =
      world.store.find? .paymentIntent id := by
  induction program generalizing choices world execution with
  | done outcome =>
      obtain rfl := Option.some.inj executed
      rfl
  | await call resume ih =>
      obtain ⟨choice, rest, served, later, rfl, performed, continued, rfl⟩ :=
        execute_await executed
      have performs : Performs world served.state ⟨call, served.answer⟩ := .of_perform performed
      have kept := performs.intents_of_harmless
        (uncreated ⟨call, served.answer⟩ (by simp)) id
      have later := ih served.answer continued fun other member =>
        uncreated other (by simp [member])
      exact later.trans kept

/-- The rule for the endpoints. -/
theorem atomic_of_conforms {program : Promise PaymentIntentView}
    (conforms : program.Conforms (Told world) (fun _ call => call.OfCreation) ensuresAtomic []) :
    Atomic deployment world program := by
  intro choices execution err executed failed
  have keeps : ∀ {call : Call} {choice : Choice} {state : World}
      {served : Served signature call World Request}, Ahead world state → call.OfCreation →
      (service deployment).perform call choice state = some served →
      Ahead world served.state ∧ Told world ⟨call, served.answer⟩ := by
    intro call choice state served ahead ofCreation performed
    have performs : Performs state served.state ⟨call, served.answer⟩ := .of_perform performed
    exact ⟨ahead.performs ofCreation performs, ahead.told performs⟩
  obtain ⟨-, atomic, -⟩ := conforms.executed
    (fun ahead ofCreation => keeps ahead ofCreation) (Ahead.refl world) executed
  have uncreated : Uncreated execution.past := by simpa using atomic err failed
  exact ⟨uncreated, intents_of_uncreated executed uncreated⟩

theorem not_atomic_of_mayAnnounceAndFail {program : Promise PaymentIntentView}
    (fails : MayAnnounceAndFail deployment consumer [] world program) :
    ¬ Atomic deployment world program := by
  intro atomic
  obtain ⟨err, row, later, state, ends⟩ := fails
  obtain ⟨choices, execution, executed, failed, isPast⟩ := ends.executed
  obtain ⟨uncreated, -⟩ := atomic choices execution err executed failed
  rw [isPast] at uncreated
  rcases uncreated _ List.mem_cons_self with peripheral | ⟨other, isError⟩
  · exact peripheral
  · cases isError

theorem drawable_or_error (deployment : Deployment) (uri : String) :
    Drawable deployment uri ∨ ∃ err, deployment.libraries.toDataURL uri = .error err := by
  unfold Drawable
  cases deployment.libraries.toDataURL uri with
  | error err => exact .inr ⟨err, rfl⟩
  | ok qr => exact .inl ⟨qr, rfl⟩

/-- A create request is atomic if and only if every URI that it may store can be drawn as a
QR code. -/
theorem creation_atomic (deployment : Deployment) (world : World) (consumer : GatewayConsumer) :
    (∀ dto, Atomic deployment world (createTx deployment consumer dto) ↔
      ∀ uri, MayStoreTx deployment world consumer dto uri → Drawable deployment uri) ∧
    ∀ dto, Atomic deployment world (createPay deployment consumer dto) ↔
      ∀ uri, MayStorePay deployment world consumer dto uri → Drawable deployment uri := by
  refine ⟨fun dto => ⟨fun atomic uri stores => ?_, fun drawable =>
    atomic_of_conforms (atomic_createTx dto drawable)⟩, fun dto => ⟨fun atomic uri stores => ?_,
    fun drawable => atomic_of_conforms (atomic_createPay dto drawable)⟩⟩
  · rcases drawable_or_error deployment uri with drawable | ⟨err, undrawable⟩
    · exact drawable
    · exact absurd atomic (not_atomic_of_mayAnnounceAndFail (fails_createTx stores undrawable))
  · rcases drawable_or_error deployment uri with drawable | ⟨err, undrawable⟩
    · exact drawable
    · exact absurd atomic (not_atomic_of_mayAnnounceAndFail (fails_createPay stores undrawable))

end Endpoints

/-! ## A long callback -/

/-- No QR code holds more than 7089 characters. -/
def RejectsLongText (libraries : Libraries) : Prop :=
  ∀ text, 7089 < text.length → ∃ err, libraries.toDataURL text = .error err

namespace Sample

/-- Every one of its characters has two UTF-8 bytes. -/
def accents (size : Nat) : String :=
  String.ofList (List.replicate size 'é')

/-- With a callback as long as it may be. -/
def longPayDto : CreatePayPaymentIntentDto :=
  { payDto "7" with callback := .value (accents 2048) }

/-- The deployment with an encoder of the capacity of the largest QR code. -/
def capacityDeployment : Deployment where
  config := deployment.config
  libraries := { libraries with
    toDataURL := fun text =>
      if 7089 < text.length then .error (.other "The amount of data is too big")
      else libraries.toDataURL text }

end Sample

theorem length_accents (size : Nat) : (Sample.accents size).length = size := by
  simp [Sample.accents]

/-- The encoding of a text may be six times as long as the text, and more. -/
theorem length_encode_accents (size : Nat) :
    (Text.encodeComponent (Sample.accents size)).length = size * 6 := by
  have inflated : ((String.utf8EncodeChar 'é').flatMap Text.encodeByte).length = 6 := by
    decide +kernel
  rw [Text.encodeComponent_eq_flatMap, Sample.accents, String.toList_ofList, List.length_flatMap,
    List.map_replicate, List.sum_replicate_nat, inflated]

theorem longPayDto_admitted :
    Sample.longPayDto.Admitted Sample.capacityDeployment.libraries := by
  have isAmount : IsAmount "25.5" := ⟨['2', '5', '5'], 1, by decide +kernel, by decide⟩
  have isMemo : Text.IsNumeral "7" := by decide +kernel
  exact ⟨by decide +kernel, isAmount, trivial, trivial, isMemo, trivial,
    (length_accents 2048).le⟩

theorem rejectsLongText_capacity : RejectsLongText Sample.capacityDeployment.libraries := by
  intro text long
  exact ⟨_, if_pos long⟩

theorem truthy_longCallback :
    truthy Sample.longPayDto.callback.toOption = some (Sample.accents 2048) := by
  have nonempty : Sample.accents 2048 ≠ "" := by
    intro isEmpty
    have isLength := length_accents 2048
    rw [isEmpty] at isLength
    cases isLength
  exact Option.filter_some_pos (decide_eq_true nonempty)

/-- The URI of a long callback does not fit: the intent is stored and announced, and then
the request fails. -/
theorem not_creation_atomic :
    ¬ ∀ (deployment : Deployment) (world : World) (consumer : GatewayConsumer),
      RejectsLongText deployment.libraries →
      (∀ dto : CreateTxPaymentIntentDto, dto.Admitted deployment.libraries →
        Atomic deployment world (createTx deployment consumer dto)) ∧
      ∀ dto : CreatePayPaymentIntentDto, dto.Admitted deployment.libraries →
        Atomic deployment world (createPay deployment consumer dto) := by
  intro atomic
  obtain ⟨-, atomicPay⟩ := atomic Sample.capacityDeployment Sample.world (Sample.caller "alice")
    rejectsLongText_capacity
  let asset : ResolvedAsset := ⟨"native", none, .native⟩
  have stores : MayStorePay Sample.capacityDeployment Sample.world (Sample.caller "alice")
      Sample.longPayDto (payUri Sample.longPayDto asset "7") := by
    refine ⟨asset, "7", rfl, ⟨rfl, by decide +kernel, by decide +kernel⟩, ?_, rfl⟩
    rintro ⟨id, row, stored, -⟩
    cases stored
  have long : 7089 < (payUri Sample.longPayDto asset "7").length := by
    have inflated := length_le_payUri truthy_longCallback asset "7"
    rw [length_encode_accents] at inflated
    omega
  obtain ⟨err, undrawable⟩ := rejectsLongText_capacity _ long
  exact not_atomic_of_mayAnnounceAndFail (fails_createPay stores undrawable)
    (atomicPay Sample.longPayDto longPayDto_admitted)

end CosmosPay
