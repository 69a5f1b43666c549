import CosmosPay.Provenance

/-!
# Stored intents are well formed

The two create endpoints normalize the asset and the memo in ways of their own, and fill
different columns.  Whatever runs beside them, every stored intent is what one of them
inserted, up to the status, the hash, the reference and the source.
-/

namespace CosmosPay

open Awaiting Tables Program PaymentIntents
open Text (toLowerCase)

/-! ## What is inserted -/

/-- A code and an issuer that `resolveAsset` settles on. -/
structure SoundAsset (code : String) (issuer : Option String) : Prop where
  native : code = "native" ↔ issuer = none
  issued : code ≠ "native" → toLowerCase code ∉ ["xlm", "native"]
  nonempty : code ≠ ""

/-- The columns that the kind of an intent calls for. -/
structure SoundKind (kind : PaymentIntentKind) (source amount xdr : Option String) : Prop where
  tx : kind = .tx → source.isSome ∧ amount.isSome ∧ xdr.isSome
  pay : kind = .pay → source = none ∧ xdr = none

/-- An intent is only inserted with a sound asset and the columns of its kind. -/
def Call.InsertsSoundly : Call → Prop
  | .write (.create .paymentIntent new) =>
      SoundAsset new.asset new.assetIssuer ∧ SoundKind new.kind new.source new.amount new.xdr
  | _ => True

theorem Call.Peripheral.insertsSoundly {call : Call} (peripheral : call.Peripheral) :
    call.InsertsSoundly := by
  unfold Call.InsertsSoundly
  split
  · exact peripheral.elim
  · trivial

/-- Insertions of the create endpoints; nothing else inserts intents. -/
def insertions (deployment : Deployment) : Contract (service deployment) where
  relies _ := True
  permits request _ call := (Request.creation? request).isSome → Call.InsertsSoundly call
  ensures _ _ _ := True

theorem soundAsset_native : SoundAsset "native" none :=
  ⟨by simp, by simp, by simp⟩

section Endpoints

variable {deployment : Deployment}

theorem soundAsset_of_resolveAsset {assetCode assetIssuer : Field String} {asset : ResolvedAsset}
    (resolved : resolveAsset deployment assetCode assetIssuer = .ok asset) :
    SoundAsset asset.code asset.issuer := by
  simp only [resolveAsset] at resolved
  split at resolved
  · obtain rfl := Except.ok.inj resolved
    exact soundAsset_native
  · rename_i code given
    split at resolved
    · obtain rfl := Except.ok.inj resolved
      exact soundAsset_native
    · rename_i notNative
      split at resolved
      · cases resolved
      · rename_i issuer _
        cases made : deployment.libraries.newAsset code issuer with
        | error err =>
            rw [made] at resolved
            cases resolved
        | ok asset =>
            rw [made] at resolved
            obtain rfl := Except.ok.inj resolved
            have other : toLowerCase code ≠ "xlm" ∧ toLowerCase code ≠ "native" := by
              simpa [isNativeCode] using notNative
            refine ⟨⟨?_, by rintro ⟨⟩⟩, fun _ => by simpa using other,
              (truthy_eq_some.mp given).2⟩
            rintro rfl
            exact absurd (by decide) other.2

/-- What follows a synchronous step may use that the step succeeded. -/
theorem calls_ofExcept_bind {α β : Type} {kind : Call → Prop} {outcome : Except ServiceError α}
    {next : α → Promise β} (calls : ∀ value, outcome = .ok value → (next value).Calls kind) :
    (Promise.ofExcept outcome >>= next).Calls kind := by
  cases outcome with
  | error err => exact calls_throw err
  | ok value => exact calls value rfl

theorem insertsSoundly_finishCreate (consumer : GatewayConsumer) {data : NewPaymentIntent}
    (asset : SoundAsset data.asset data.assetIssuer)
    (kind : SoundKind data.kind data.source data.amount data.xdr) :
    (finishCreate deployment consumer data).Calls Call.InsertsSoundly := by
  refine Calls.bind (Calls.call_bind (by trivial) fun now => ?_) fun persisted => ?_
  · refine Calls.tryCatch (Calls.map (calls_call ⟨asset, kind⟩) _) fun err => ?_
    split
    · exact calls_pure _
    · exact calls_throw _
  · split
    · exact (calls_existingView _ _).mono fun _ => Call.Peripheral.insertsSoundly
    · exact Calls.call_bind (by trivial) fun _ => calls_withQr _

theorem insertsSoundly_createTx (consumer : GatewayConsumer) (dto : CreateTxPaymentIntentDto) :
    (createTx deployment consumer dto).Calls Call.InsertsSoundly := by
  have peripheral : ∀ call : Call, call.Peripheral → call.InsertsSoundly :=
    fun _ => Call.Peripheral.insertsSoundly
  refine Calls.call_bind (by trivial) fun owner => calls_ofExcept_bind fun asset resolved => ?_
  refine Calls.bind (calls_resolveMemo trivial _) fun memo => ?_
  refine Calls.call_bind (by trivial) fun found => ?_
  split
  · exact calls_withQr _
  · refine Calls.bind ((calls_loadAccount _ _).mono fun call isHorizon =>
      peripheral call isHorizon.peripheral) fun _ => ?_
    refine Calls.call_bind (by trivial) fun now => Calls.bind (calls_ofExcept _) fun xdr => ?_
    refine insertsSoundly_finishCreate consumer (soundAsset_of_resolveAsset resolved)
      ⟨fun _ => ⟨rfl, rfl, rfl⟩, ?_⟩
    rintro ⟨⟩

theorem insertsSoundly_createPay (consumer : GatewayConsumer) (dto : CreatePayPaymentIntentDto) :
    (createPay deployment consumer dto).Calls Call.InsertsSoundly := by
  have peripheral : ∀ call : Call, call.Peripheral → call.InsertsSoundly :=
    fun _ => Call.Peripheral.insertsSoundly
  refine Calls.call_bind (by trivial) fun owner => calls_ofExcept_bind fun asset resolved => ?_
  refine Calls.bind (calls_resolveMemo trivial _) fun memo => ?_
  refine Calls.call_bind (by trivial) fun found => ?_
  split
  · exact calls_withQr _
  · refine insertsSoundly_finishCreate consumer (soundAsset_of_resolveAsset resolved)
      ⟨?_, fun _ => ⟨rfl, rfl⟩⟩
    rintro ⟨⟩

theorem insertions_fulfilled : (insertions deployment).Fulfilled where
  answers _ := trivial
  bodies request := by
    have free : Request.creation? request = none →
        (request.body deployment).Conforms (fun _ => True)
          (fun _ call => (Request.creation? request).isSome → Call.InsertsSoundly call)
          (fun _ _ => True) [] := by
      intro isNone
      refine conforms_of_forall _ (fun _ _ isSome => ?_) fun _ _ => trivial
      rw [isNone] at isSome
      cases isSome
    cases request with
    | paymentIntents request =>
        cases request with
        | createTx consumer dto =>
            exact (((insertsSoundly_createTx consumer dto).map _) []).mono
              (fun _ _ sound _ => sound) fun _ _ done => done
        | createPay consumer dto =>
            exact (((insertsSoundly_createPay consumer dto).map _) []).mono
              (fun _ _ sound _ => sound) fun _ _ done => done
        | _ => exact free rfl
    | _ => exact free rfl

end Endpoints

/-! ## What is stored -/

theorem bigEndian_lt (bytes : List UInt8) : bigEndian bytes < 256 ^ bytes.length := by
  suffices general : ∀ (bytes : List UInt8) (start : Nat),
      bytes.foldl (fun value byte => value * 256 + byte.toNat) start <
        (start + 1) * 256 ^ bytes.length by
    simpa [bigEndian] using general bytes 0
  intro bytes
  induction bytes with
  | nil => simp
  | cons byte bytes ih =>
      intro start
      have small : byte.toNat < 256 := byte.toNat_lt
      have shifted : start * 256 + byte.toNat + 1 ≤ (start + 1) * 256 := by omega
      calc
        (byte :: bytes).foldl (fun value byte => value * 256 + byte.toNat) start <
            (start * 256 + byte.toNat + 1) * 256 ^ bytes.length :=
          ih (start * 256 + byte.toNat)
        _ ≤ (start + 1) * 256 * 256 ^ bytes.length := Nat.mul_le_mul_right _ shifted
        _ = (start + 1) * 256 ^ (byte :: bytes).length := by
          rw [List.length_cons, Nat.pow_succ', Nat.mul_assoc]

theorem Performs.of_randomBytes {before after : World} {size : Nat} {bytes : List UInt8}
    (performs : Performs before after ⟨.randomBytes size, .ok bytes⟩) : bytes.length = size := by
  obtain ⟨choice, served, made, isAnswer, -⟩ := performs
  cases choice with
  | bytes drawn =>
      simp only [World.perform, Option.ite_none_right_eq_some, Option.some.injEq] at made
      obtain ⟨isSize, rfl⟩ := made
      obtain rfl := Except.ok.inj isAnswer
      exact isSize
  | _ => cases made

/-- The shape of a stored intent. -/
structure PaymentIntent.WellFormed (row : PaymentIntent) : Prop where
  network : row.network.name = "public" ∨ row.network.name = "testnet"
  memo : Text.IsNumeral row.memo ∧ Text.numeralValue row.memo ≤ 2 ^ 64 - 1
  asset : row.asset = "native" ↔ row.assetIssuer = none
  code : row.asset ≠ "native" → toLowerCase row.asset ∉ ["xlm", "native"]
  tx : row.kind = .tx → row.source.isSome ∧ row.amount.isSome ∧ row.xdr.isSome
  pay : row.kind = .pay → row.xdr = none

section Runs

variable {deployment : Deployment}
variable {allows : Config (service deployment) → Label (service deployment) → Prop}
variable {config config' : Config (service deployment)} {state : World}

/-- `markSucceeded` has been applied to the intent. -/
def MarkedSucceeded (config : Config (service deployment)) (id : String) : Prop :=
  ∃ thread hash payer current row,
    ⟨thread, .write (.update .paymentIntent id (succeededPatch hash payer current)), .ok row⟩ ∈
      config.trace

/-- Where the source of a stored intent comes from. -/
structure SoundSource (config : Config (service deployment)) (row : PaymentIntent) : Prop where
  tx : row.kind = .tx → row.source.isSome
  pay : row.kind = .pay → row.source ≠ none → MarkedSucceeded config row.id

theorem SoundSource.mono {row : PaymentIntent} (sound : SoundSource config row)
    (grows : config.trace ⊆ config'.trace) : SoundSource config' row := by
  refine ⟨sound.tx, fun isPay isSource => ?_⟩
  obtain ⟨thread, hash, payer, current, written, member⟩ := sound.pay isPay isSource
  exact ⟨thread, hash, payer, current, written, grows member⟩

omit config config' allows in
theorem source_of_permitted {request : Request} {past : History signature} {id : String}
    {patch : PaymentIntentPatch}
    (permitted : permitsTransition request past (.write (.update .paymentIntent id patch))) :
    patch.source = .undefined ∨
      ∃ hash payer current, patch = succeededPatch hash payer current := by
  have marked : Marks past id patch → patch.source = .undefined ∨
      ∃ hash payer current, patch = succeededPatch hash payer current := by
    intro marks
    cases marks with
    | succeeded intent hash payer current => exact .inr ⟨hash, payer, current, rfl⟩
    | failed => exact .inl rfl
    | expired => exact .inl rfl
  simp only [permitsTransition] at permitted
  split at permitted
  · obtain ⟨-, rfl, -⟩ := permitted
    exact .inl rfl
  · exact marked permitted.2.2
  · exact marked permitted.2
  · exact permitted.elim

omit config config' allows in
/-- `markSucceeded` never clears a source. -/
theorem isSome_source_of_succeeded {hash : String} {payer : Option String}
    {current : Option (Option String)} {old : Option String} (isSource : old.isSome) :
    ((succeededPatch hash payer current).source.set old).isSome := by
  simp only [succeededPatch]
  split
  · rfl
  · exact isSource

/-- Whatever is inserted is inserted by a create endpoint. -/
theorem insertsSoundly_of_paused (run : Run allows (Config.initial state) config) {thread : Nat}
    {request : Request} {new : NewPaymentIntent}
    {resume : signature.Result (.write (.create .paymentIntent new)) → Promise Reply}
    (paused : config.threads[thread]? =
      some ⟨request, .await (.write (.create .paymentIntent new)) resume⟩) :
    SoundAsset new.asset new.assetIssuer ∧ SoundKind new.kind new.source new.amount new.xdr := by
  have transits : permitsTransition request (config.past thread)
      (.write (.create .paymentIntent new)) := run.permitted transitions_fulfilled paused
  have sound := run.permitted insertions_fulfilled paused
  simp only [permitsTransition] at transits
  split at transits
  · exact sound rfl
  · exact sound rfl
  · exact transits.elim

theorem soundSource_of_stored (run : Run allows (Config.initial state) config)
    (start : state.store = .empty) {id : String} {row : PaymentIntent}
    (found : config.state.store.find? .paymentIntent id = some row) : SoundSource config row := by
  revert id row
  refine run.keeps (I := fun config : Config (service deployment) =>
    ∀ {id : String} {row : PaymentIntent},
      config.state.store.find? .paymentIntent id = some row → SoundSource config row) ?_ ?_
  · intro id row found
    rw [find?_initial start] at found
    cases found
  · intro config config' reached ih step id row found
    have grows := step_trace step
    rcases step_cases step with ⟨-, drifts⟩ | ⟨thread, choice, request, performed, resumes⟩
    · rw [drifts.store] at found
      exact (ih found).mono grows
    obtain ⟨resume, paused, -⟩ := resumes.paused
    cases resumes.performs.rows .paymentIntent with
    | kept same => exact (ih ((same id).symm.trans found)).mono grows
    | created new drawn createdAt isCreate _ change =>
        rw [change.lookup] at found
        split at found
        · obtain rfl := Option.some.inj found
          subst isCreate
          have kinds := (insertsSoundly_of_paused reached paused).2
          exact ⟨fun isTx => (kinds.tx isTx).1,
            fun isPay isSource => absurd (kinds.pay isPay).1 isSource⟩
        · exact (ih found).mono grows
    | updated key patch old isUpdate change =>
        rw [change.lookup] at found
        split at found
        · obtain rfl := Option.some.inj found
          subst isUpdate
          have before := ih change.found
          have member : ⟨thread, .write (.update .paymentIntent key patch),
              .ok (Model.apply .paymentIntent patch old)⟩ ∈ config'.trace := by
            rw [resumes.trace]
            exact List.mem_cons_self
          rcases source_of_permitted (reached.permitted transitions_fulfilled paused) with
            untouched | ⟨hash, payer, current, rfl⟩
          · have same : (Model.apply .paymentIntent patch old).source = old.source := by
              simp [Model.apply, untouched, Field.set]
            refine ⟨fun isTx => ?_, fun isPay isSource => ?_⟩
            · rw [same]
              exact before.tx isTx
            · rw [same] at isSource
              exact (before.mono grows).pay isPay isSource
          · have isKey : key = old.id := (Table.key_of_find? change.found).symm
            subst isKey
            exact ⟨fun isTx => isSome_source_of_succeeded (before.tx isTx),
              fun _ _ => ⟨thread, hash, payer, current, _, member⟩⟩
        · exact (ih found).mono grows
    | deleted key old _ change =>
        rw [change.lookup] at found
        split at found
        · cases found
        · exact (ih found).mono grows
    | cascaded key old isDelivery => cases isDelivery

/-- The memo that a create request settles on is a 64-bit number. -/
theorem acceptedMemo_of_resolves (run : Run allows (Config.initial state) config) {thread : Nat}
    {provided : Field String} {memo : String}
    (resolves : ResolvesMemo (config.past thread) provided memo) : AcceptedMemo memo := by
  cases provided with
  | null => exact resolves.elim
  | value given =>
      obtain ⟨rfl, accepted⟩ := resolves
      exact accepted
  | undefined =>
      obtain ⟨bytes, drawn, rfl⟩ := resolves
      obtain ⟨before, after, choice, request, -, resumes, -⟩ :=
        exists_resumes_of_mem run (mem_pastOf.mp drawn)
      have size := resumes.performs.of_randomBytes
      have bound := bigEndian_lt bytes
      rw [size] at bound
      refine ⟨Text.isNumeral_repr _, ?_⟩
      rw [Text.numeralValue_repr, maxMemoId]
      omega

theorem soundAsset_of_stored (run : Run allows (Config.initial state) config)
    (start : state.store = .empty) {id : String} {row : PaymentIntent}
    (found : config.state.store.find? .paymentIntent id = some row) :
    SoundAsset row.asset row.assetIssuer := by
  obtain ⟨maker, new, original, member, sameTerms⟩ :=
    inserted_of_stored run (by simp [start, Store.empty]) found
  obtain ⟨before, after, choice, request, reached, resumes, -⟩ := exists_resumes_of_mem run member
  obtain ⟨resume, paused, -⟩ := resumes.paused
  obtain ⟨asset, -⟩ := insertsSoundly_of_paused reached paused
  obtain ⟨drawn, -, rfl, -⟩ := resumes.performs.of_create
  have codes : new.asset = row.asset := congrArg PaymentIntent.asset sameTerms
  have issuers : new.assetIssuer = row.assetIssuer := congrArg PaymentIntent.assetIssuer sameTerms
  rwa [codes, issuers] at asset

theorem wellFormed_of_stored (run : Run allows (Config.initial state) config)
    (start : state.store = .empty) {id : String} {row : PaymentIntent}
    (found : config.state.store.find? .paymentIntent id = some row) : row.WellFormed := by
  have source := soundSource_of_stored run start found
  have asset := soundAsset_of_stored run start found
  obtain ⟨maker, inserted⟩ := inserted_of_stored run (by simp [start, Store.empty]) found
  obtain ⟨creation, made⟩ := inserted.madeBy run
  have accepted := acceptedMemo_of_resolves run made.memo
  obtain ⟨new, original, member, sameTerms⟩ := inserted
  obtain ⟨before, after, choice, request, reached, resumes, -⟩ := exists_resumes_of_mem run member
  obtain ⟨resume, paused, -⟩ := resumes.paused
  obtain ⟨-, kinds⟩ := insertsSoundly_of_paused reached paused
  obtain ⟨drawn, -, rfl, -⟩ := resumes.performs.of_create
  have sameKind : new.kind = row.kind := congrArg PaymentIntent.kind sameTerms
  have amounts : new.amount = row.amount := congrArg PaymentIntent.amount sameTerms
  have envelopes : new.xdr = row.xdr := congrArg PaymentIntent.xdr sameTerms
  rw [sameKind, amounts, envelopes] at kinds
  exact {
    network := by cases row.network <;> simp [StellarNetwork.name]
    memo := accepted
    asset := asset.native
    code := asset.issued
    tx := fun isTx => ⟨source.tx isTx, (kinds.tx isTx).2⟩
    pay := fun isPay => (kinds.pay isPay).2 }

/-- In every reachable configuration every stored intent is well formed, a PAY intent has no
source unless `markSucceeded` was applied to it, and nothing but the status, the hash, the
reference and the source of an intent ever changes. -/
theorem intents_wellFormed (start : state.store = .empty)
    (run : Run allows (Config.initial state) config) {id : String} {row : PaymentIntent}
    (found : config.state.store.find? .paymentIntent id = some row) :
    row.WellFormed ∧ (row.kind = .pay → row.source ≠ none → MarkedSucceeded config row.id) ∧
      ∀ config' row', Run allows config config' →
        config'.state.store.find? .paymentIntent id = some row' → row'.terms = row.terms := by
  refine ⟨wellFormed_of_stored run start found, (soundSource_of_stored run start found).pay,
    fun config' row' later found' => ?_⟩
  obtain rfl : row.id = id := Table.key_of_find? found
  have kept : KeepsTerms row config'.state := by
    refine (keepsTerms_stable row).run later ⟨Store.issued_of_find? found, fun other same => ?_⟩
    rw [Option.some.inj (same.symm.trans found)]
  exact kept.2 row' found'

/-- A PAY intent is created and then paid. -/
def paidPayIntent : Config (service Sample.deployment) :=
  after (fun _ _ => true)
    (Sample.create 0 "alice" "7" "c" "pi" ++
      Sample.validate "alice" "pi" '1' :: Sample.serve 2 7)
    Sample.start

theorem intents_wellFormed_of_paidPayIntent :
    ∃ row, paidPayIntent.state.store.find? .paymentIntent "pi" = some row ∧ row.WellFormed ∧
      row.source = some Sample.payer ∧ MarkedSucceeded paidPayIntent row.id := by
  have shown : (paidPayIntent.state.store.find? .paymentIntent "pi").map
      (fun row => (row.kind, row.source)) = some (.pay, some Sample.payer) := by
    decide +kernel
  obtain ⟨row, found, isShown⟩ := Option.map_eq_some_iff.mp shown
  obtain ⟨isPay, isSource⟩ := Prod.mk.inj isShown
  have run : Run (fun _ _ => True) Sample.start paidPayIntent :=
    run_after (fun _ _ _ => trivial) _ _
  obtain ⟨wellFormed, marked, -⟩ := intents_wellFormed rfl run found
  exact ⟨row, found, wellFormed, isSource, marked isPay (by simp [isSource])⟩

end Runs

end CosmosPay
