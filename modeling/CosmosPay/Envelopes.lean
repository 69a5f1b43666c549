import CosmosPay.Attempts
import CosmosPay.Contracts.Envelopes
import CosmosPay.Contracts.Readings
import CosmosPay.Recognition
import CosmosPay.Sources

/-!
# Paying with the envelope that was handed out

A TX intent comes with an envelope for the wallet to sign.  Whatever happens to the intent
meanwhile, its envelope and its payer stay the same, and the envelope pays what the row asks for:
the transaction that it becomes is recognised, unless it fails or the memo is not canonical.
-/

namespace CosmosPay

open Awaiting Tables PaymentIntents StellarVerifier

/-- The documented behaviour of the SDK: an asset has the code and the issuer that it was made
from, and no account has an empty address. -/
structure Libraries.Documented (libraries : Libraries) : Prop where
  newAsset : ∀ code issuer asset,
    libraries.newAsset code issuer = .ok asset → asset = .issued code issuer
  address : libraries.isValidEd25519PublicKey "" = false

section Runs

variable {deployment : Deployment}
variable {allows : Config (service deployment) → Label (service deployment) → Prop}
variable {config config' : Config (service deployment)} {state : World}

/-- The envelope of a stored TX intent, with the account that Horizon returned for it. -/
structure HandedOut (config : Config (service deployment)) (row : PaymentIntent)
    (envelope : EnvelopeRequest) : Prop where
  built : ∃ xdr, deployment.libraries.buildEnvelope envelope = .ok xdr ∧ row.xdr = some xdr
  payer : row.source = some envelope.account.accountId
  address : deployment.libraries.isValidEd25519PublicKey envelope.account.accountId = true
  loaded : ∃ thread, ⟨thread, .horizon (.loadAccount row.network envelope.account.accountId),
    .ok envelope.account⟩ ∈ config.trace
  fee : envelope.fee = deployment.config.baseFee
  passphrase : envelope.networkPassphrase = row.network.passphrase
  destination : envelope.destination = row.destination
  amount : row.amount = some envelope.amount
  asset : Denotes deployment row.asset row.assetIssuer envelope.asset
  memo : envelope.memo = row.memo
  timeout : envelope.timeoutSeconds = deployment.config.timeoutSeconds

theorem HandedOut.mono {first second : PaymentIntent} {envelope : EnvelopeRequest}
    (handedOut : HandedOut config first envelope) (grows : config.trace ⊆ config'.trace)
    (terms : first.terms = second.terms) (sources : first.source = second.source) :
    HandedOut config' second envelope := by
  obtain ⟨thread, loaded⟩ := handedOut.loaded
  have networks : first.network = second.network := network_of_terms_eq terms
  have envelopes : first.xdr = second.xdr := (congrArg PaymentIntent.xdr terms :)
  have destinations : first.destination = second.destination :=
    (congrArg PaymentIntent.destination terms :)
  have amounts : first.amount = second.amount := (congrArg PaymentIntent.amount terms :)
  have assets : first.asset = second.asset := (congrArg PaymentIntent.asset terms :)
  have issuers : first.assetIssuer = second.assetIssuer :=
    (congrArg PaymentIntent.assetIssuer terms :)
  have memos : first.memo = second.memo := (congrArg PaymentIntent.memo terms :)
  exact {
    built := envelopes ▸ handedOut.built
    payer := sources ▸ handedOut.payer
    address := handedOut.address
    loaded := ⟨thread, grows (networks ▸ loaded)⟩
    fee := handedOut.fee
    passphrase := networks ▸ handedOut.passphrase
    destination := destinations ▸ handedOut.destination
    amount := amounts ▸ handedOut.amount
    asset := assets ▸ issuers ▸ handedOut.asset
    memo := memos ▸ handedOut.memo
    timeout := handedOut.timeout }

/-- Horizon returns the account that it was asked for. -/
theorem Performs.accountId_of_loaded {before after : World} {network : StellarNetwork}
    {source : String} {account : Account}
    (performs : Performs before after ⟨.horizon (.loadAccount network source), .ok account⟩) :
    account.accountId = source := by
  obtain ⟨-, answered⟩ := performs.of_horizon
  simp only [HorizonCall.answer] at answered
  split at answered
  · rename_i found isFound
    obtain rfl := Except.ok.inj answered
    obtain ⟨entry, isEntry, rfl⟩ := Option.map_eq_some_iff.mp isFound
    have checked := List.find?_some isEntry
    exact (of_decide_eq_true checked).2
  · cases answered

/-- A TX intent is inserted with an envelope. -/
theorem handedOut_of_create {maker : Nat} {choice : Choice} {request : Request}
    {new : NewPaymentIntent} {original : PaymentIntent}
    (run : AdmittedRun (Config.initial state) config)
    (resumes : Resumes (fun _ label => IssuesAdmitted label) config config' maker choice request
      ⟨.write (.create .paymentIntent new), .ok original⟩) (isTx : original.kind = .tx) :
    ∃ envelope, HandedOut config' original envelope := by
  obtain ⟨resume, paused, -⟩ := resumes.paused
  obtain ⟨id, -, rfl, -⟩ := resumes.performs.of_create
  have composes := composes_of_paused run paused
  have transits : permitsTransition request (config.past maker)
      (.write (.create .paymentIntent new)) := run.permitted transitions_fulfilled paused
  have creates : (Request.creation? request).isSome := by
    simp only [permitsTransition] at transits
    split at transits
    · rfl
    · rfl
    · exact transits.elim
  obtain ⟨envelope, encloses⟩ := run.permitted envelopes_fulfilled paused creates isTx
  obtain ⟨source, isSource, loaded⟩ := encloses.loaded
  have entry := mem_pastOf.mp loaded
  obtain ⟨before, after, choice, asker, -, asks, -⟩ := exists_resumes_of_mem run entry
  obtain rfl := asks.performs.accountId_of_loaded
  refine ⟨envelope, ?_⟩
  exact {
    built := encloses.built
    payer := isSource
    address := by
      have admitted := run.admitted paused
      cases composes with
      | tx consumer dto owner asset memo xdr expiresAt asked resolved amount built =>
          have given : dto.source = envelope.account.accountId := Option.some.inj isSource
          exact given ▸ admitted.1
      | pay => cases isTx
    loaded := ⟨maker, resumes.trace ▸ List.mem_cons_of_mem _ entry⟩
    fee := encloses.fee
    passphrase := encloses.passphrase
    destination := encloses.destination
    amount := encloses.amount
    asset := encloses.asset
    memo := encloses.memo
    timeout := encloses.timeout }

/-! ## The payer of a TX intent -/

/-- The intent has been deleted. -/
def Gone (id : String) (world : World) : Prop :=
  id ∈ world.store.issued ∧ world.store.find? .paymentIntent id = none

theorem gone_stable (id : String) : Stable (Gone id) where
  performs performs gone := by
    refine ⟨performs.issued _ gone.1, Option.eq_none_iff_forall_ne_some.mpr fun row found => ?_⟩
    obtain ⟨old, oldFound, -⟩ := performs.column_eq PaymentIntent.terms terms_apply gone.1 found
    rw [gone.2] at oldFound
    cases oldFound
  drifts drifts gone := by rwa [Gone, drifts.store]

/-- Every TX intent has its envelope, and whatever was read as its source is its source. -/
structure Intact (config : Config (service deployment)) : Prop where
  handedOut : ∀ id row, config.state.store.find? .paymentIntent id = some row →
    row.kind = .tx → ∃ envelope, HandedOut config row envelope
  sources : ∀ thread id source,
    ⟨thread, .query (.intentSource id), .ok (some source)⟩ ∈ config.trace →
      ∀ row, config.state.store.find? .paymentIntent id = some row → row.kind = .tx →
        row.source = source

theorem issued_of_read (run : Run allows (Config.initial state) config) {thread : Nat}
    {intent : PaymentIntent} (read : HasRead (config.past thread) intent) :
    intent.id ∈ config.state.store.issued := by
  obtain ⟨performed, member, returned⟩ := read
  obtain ⟨before, after, choice, request, -, resumes, later, -⟩ :=
    exists_resumes_of_mem run (mem_pastOf.mp member)
  exact (issued_stable intent.id).run later
    (Store.issued_of_find? (resumes.performs.find?_of_returned returned))

/-- The source of an intent that is still stored was found when it was read. -/
theorem exists_source_of_read (run : Run allows (Config.initial state) config) {thread : Nat}
    {id : String} {current : Option (Option String)} {older : History signature}
    (past : config.past thread = ⟨.query (.intentSource id), .ok current⟩ :: older)
    {intent : PaymentIntent} (isIntent : intent.id = id) (read : HasRead older intent)
    {row : PaymentIntent} (found : config.state.store.find? .paymentIntent id = some row) :
    ∃ source, current = some source := by
  have asked : pastOf thread config.trace =
      [] ++ ⟨.query (.intentSource id), .ok current⟩ :: older := past
  obtain ⟨newer, rest, split, -, isOlder⟩ := exists_split_of_pastOf asked
  obtain ⟨before, after, choice, request, reached, rfl, resumes, later, -⟩ :=
    exists_resumes_of_split run split
  obtain ⟨-, order, answered⟩ := resumes.performs.of_query
  have isCurrent : (before.state.store.find? .paymentIntent id).map PaymentIntent.source =
      current := Option.some.inj answered
  cases stored : before.state.store.find? .paymentIntent id with
  | some earlier =>
      rw [stored] at isCurrent
      exact ⟨_, isCurrent.symm⟩
  | none =>
      have issued : id ∈ before.state.store.issued :=
        isIntent ▸ issued_of_read reached (isOlder ▸ read)
      have gone := (gone_stable id).run (.head resumes.step later) ⟨issued, stored⟩
      rw [gone.2] at found
      cases found

theorem source_of_kept {old : PaymentIntent} {patch : PaymentIntentPatch}
    (kept : patch.source = .undefined) :
    (Model.apply .paymentIntent patch old).source = old.source := by
  simp [Model.apply, kept, Field.set]

/-- A settlement leaves the source of a TX intent alone. -/
theorem Intact.source_of_update (documented : deployment.libraries.Documented)
    (run : Run allows (Config.initial state) config) (intact : Intact config) {thread : Nat}
    {request : Request} {id : String} {patch : PaymentIntentPatch}
    {resume : signature.Result (.write (.update .paymentIntent id patch)) → Promise Reply}
    (paused : config.threads[thread]? =
      some ⟨request, .await (.write (.update .paymentIntent id patch)) resume⟩)
    {old : PaymentIntent} (found : config.state.store.find? .paymentIntent id = some old)
    (isTx : old.kind = .tx) : patch.source = .undefined := by
  have transits : permitsTransition request (config.past thread)
      (.write (.update .paymentIntent id patch)) := run.permitted transitions_fulfilled paused
  have reads : permitsReading deployment request (config.past thread)
      (.write (.update .paymentIntent id patch)) := run.permitted readings_fulfilled paused
  have settling : ReadsFirst (config.past thread) (.write (.update .paymentIntent id patch)) →
      Marks (config.past thread) id patch → patch.source = .undefined := by
    rintro (kept | ⟨hash, payer, current, older, rfl, past⟩) marks
    · exact kept
    -- the thread has read the intent, and then its source
    obtain ⟨intent, isIntent, performed, member, returned⟩ := marks.exists_read rfl
    have read : HasRead older intent := by
      rw [past] at member
      rcases List.mem_cons.mp member with rfl | earlier
      · cases returned
      · exact ⟨performed, earlier, returned⟩
    obtain ⟨source, rfl⟩ := exists_source_of_read run past isIntent read found
    have entry : ⟨thread, .query (.intentSource id), .ok (some source)⟩ ∈ config.trace := by
      refine mem_pastOf.mp ?_
      rw [← Config.past, past]
      exact List.mem_cons_self
    obtain ⟨envelope, handedOut⟩ := intact.handedOut id old found isTx
    have isSource : source = some envelope.account.accountId :=
      (intact.sources thread id source entry old found isTx).symm.trans handedOut.payer
    have given : envelope.account.accountId ≠ "" := by
      intro empty
      have valid := handedOut.address
      rw [empty, documented.address] at valid
      cases valid
    have isPayer : truthy source = some envelope.account.accountId :=
      truthy_eq_some.mpr ⟨isSource, given⟩
    simp only [succeededPatch, Option.join_some, isPayer]
    cases truthy payer <;> rfl
  cases request with
  | paymentIntents request =>
      cases request with
      | update consumer key dto =>
          obtain ⟨-, rfl, -⟩ := transits
          rfl
      | validate consumer key hash => exact settling reads transits.2.2
      | _ => exact transits.elim
  | tick node => exact settling reads transits.2
  | _ => exact transits.elim

/-- A stored TX intent was there with the same terms and the same source, or has just been
inserted with its envelope. -/
theorem Intact.row_step (documented : deployment.libraries.Documented)
    (run : AdmittedRun (Config.initial state) config) (intact : Intact config)
    (step : Step (fun _ label => IssuesAdmitted label) config config') {id : String}
    {row : PaymentIntent} (found : config'.state.store.find? .paymentIntent id = some row)
    (isTx : row.kind = .tx) :
    (∃ old, config.state.store.find? .paymentIntent id = some old ∧ old.terms = row.terms ∧
        old.source = row.source) ∨
      (id ∉ config.state.store.issued ∧ ∃ envelope, HandedOut config' row envelope) := by
  rcases step_cases step with ⟨-, drifts⟩ | ⟨thread, choice, request, performed, resumes⟩
  · rw [drifts.store] at found
    exact .inl ⟨row, found, rfl, rfl⟩
  cases resumes.performs.rows .paymentIntent with
  | kept same => exact .inl ⟨row, (same id).symm.trans found, rfl, rfl⟩
  | created new drawn createdAt isCreate fresh change =>
      rw [change.lookup] at found
      split at found
      · rename_i isDrawn
        obtain rfl := Option.some.inj found
        subst isCreate
        exact .inr ⟨isDrawn ▸ fresh, handedOut_of_create run resumes isTx⟩
      · exact .inl ⟨row, found, rfl, rfl⟩
  | updated key patch old isUpdate change =>
      rw [change.lookup] at found
      split at found
      · rename_i isKey
        subst isKey
        obtain rfl := Option.some.inj found
        subst isUpdate
        obtain ⟨resume, paused, -⟩ := resumes.paused
        have kept := intact.source_of_update documented run paused change.found isTx
        exact .inl ⟨old, change.found, (terms_apply patch old).symm,
          (source_of_kept kept).symm⟩
      · exact .inl ⟨row, found, rfl, rfl⟩
  | deleted key old isDelete change =>
      rw [change.lookup] at found
      split at found
      · cases found
      · exact .inl ⟨row, found, rfl, rfl⟩
  | cascaded key old isDelivery => cases isDelivery

theorem kind_of_terms_eq {first second : PaymentIntent} (same : first.terms = second.terms) :
    first.kind = second.kind :=
  (congrArg PaymentIntent.kind same :)

theorem Intact.step (documented : deployment.libraries.Documented)
    (run : AdmittedRun (Config.initial state) config) (intact : Intact config)
    (step : Step (fun _ label => IssuesAdmitted label) config config') : Intact config' where
  handedOut id row found isTx := by
    rcases intact.row_step documented run step found isTx with
      ⟨old, isOld, terms, sources⟩ | ⟨-, handedOut⟩
    · obtain ⟨envelope, handedOut⟩ :=
        intact.handedOut id old isOld ((kind_of_terms_eq terms).trans isTx)
      exact ⟨envelope, handedOut.mono (step_trace step) terms sources⟩
    · exact handedOut
  sources thread id source member row found isTx := by
    -- either the source was read earlier, or this step reads it and changes nothing
    have earlier : ⟨thread, .query (.intentSource id), .ok (some source)⟩ ∈ config.trace →
        row.source = source := by
      intro earlier
      rcases intact.row_step documented run step found isTx with
        ⟨old, isOld, terms, sources⟩ | ⟨fresh, -⟩
      · rw [← sources]
        exact intact.sources thread id source earlier old isOld
          ((kind_of_terms_eq terms).trans isTx)
      · obtain ⟨before, after, choice, request, -, resumes, later, -⟩ :=
          exists_resumes_of_mem run earlier
        obtain ⟨same, order, answered⟩ := resumes.performs.of_query
        obtain ⟨stored, isStored, -⟩ := Option.map_eq_some_iff.mp (Option.some.inj answered)
        have isIntent : before.state.store.find? .paymentIntent id = some stored := isStored
        exact absurd ((issued_stable id).run (.head resumes.step later)
          (Store.issued_of_find? isIntent)) fresh
    rcases step_cases step with ⟨same, -⟩ | ⟨reader, choice, request, performed, resumes⟩
    · exact earlier (same ▸ member)
    · rw [resumes.trace] at member
      rcases List.mem_cons.mp member with isNew | older
      · cases isNew
        obtain ⟨same, order, answered⟩ := resumes.performs.of_query
        obtain ⟨stored, isStored, isSource⟩ :=
          Option.map_eq_some_iff.mp (Option.some.inj answered)
        rw [same] at found
        obtain rfl := Option.some.inj (isStored.symm.trans found)
        exact isSource
      · exact earlier older

theorem intact_of_run (documented : deployment.libraries.Documented)
    (start : state.store = .empty) (run : AdmittedRun (Config.initial state) config) :
    Intact config := by
  refine run.keeps (I := fun config : Config (service deployment) => Intact config) ?_ ?_
  · refine ⟨fun id row found => ?_, fun thread id source member => ?_⟩
    · rw [find?_initial start] at found
      cases found
    · cases member
  · exact fun config config' reached intact step => intact.step documented reached step

/-- An intent that is still stored has the envelope that it was handed out with. -/
theorem HandedOut.run (documented : deployment.libraries.Documented)
    (start : state.store = .empty) (before : AdmittedRun (Config.initial state) config)
    (later : AdmittedRun config config') {id : String} {row : PaymentIntent}
    (found : config.state.store.find? .paymentIntent id = some row) (isTx : row.kind = .tx)
    {envelope : EnvelopeRequest} (handedOut : HandedOut config row envelope)
    {shown : PaymentIntent} (isShown : config'.state.store.find? .paymentIntent id = some shown) :
    HandedOut config' shown envelope := by
  obtain rfl : row.id = id := Table.key_of_find? found
  have terms : ∀ latest, AdmittedRun config latest → KeepsTerms row latest.state := by
    refine fun latest onward => (keepsTerms_stable row).run onward
      ⟨Store.issued_of_find? found, fun other same => ?_⟩
    rw [Option.some.inj (found.symm.trans same)]
  have sources : ∀ shown, config'.state.store.find? .paymentIntent row.id = some shown →
      row.source = shown.source := by
    refine later.keeps (I := fun latest : Config (service deployment) => ∀ shown,
      latest.state.store.find? .paymentIntent row.id = some shown → row.source = shown.source) ?_ ?_
    · intro shown isShown
      obtain rfl := Option.some.inj (found.symm.trans isShown)
      rfl
    · intro latest next onward same step shown isShown
      have reached := before.trans onward
      obtain ⟨issued, -⟩ := terms latest onward
      have isKind := kind_of_terms_eq ((terms next (onward.tail step)).2 shown isShown)
      rcases (intact_of_run documented start reached).row_step documented reached step isShown
        (isKind.trans isTx) with ⟨old, isOld, -, kept⟩ | ⟨fresh, -⟩
      · exact (same old isOld).trans kept
      · exact absurd issued fresh
  exact handedOut.mono (trace_subset later) ((terms config' later).2 shown isShown).symm
    (sources shown isShown)

end Runs

/-! ## The transaction that the envelope becomes -/

/-- How Horizon shows the asset that an operation moves. -/
def Operation.Moves (operation : Operation) : Asset → Prop
  | .native => operation.assetType = "native"
  | .issued code issuer => operation.assetCode = some code ∧ operation.assetIssuer = some issuer

/-- The payment of the envelope, as Horizon shows it. -/
structure Operation.CarriesOut (operation : Operation) (envelope : EnvelopeRequest) : Prop where
  isPayment : operation.type = "payment"
  payer : operation.fromAccount = envelope.account.accountId
  destination : operation.toAccount = envelope.destination
  asset : operation.Moves envelope.asset
  amount : ∃ count, stroops operation.amount = some count ∧ stroops envelope.amount = some count

/-- The transaction is the envelope, signed and submitted to the network that it is for. -/
structure Transaction.CarriesOut (tx : Transaction) (envelope : EnvelopeRequest) : Prop where
  passphrase : tx.network.passphrase = envelope.networkPassphrase
  memo : tx.memo = chainMemo envelope.memo
  operation : ∃ operation, tx.operations = [operation] ∧ operation.CarriesOut envelope

theorem passphrase_injective {first second : StellarNetwork}
    (same : first.passphrase = second.passphrase) : first = second := by
  cases first <;> cases second <;> first | rfl | exact absurd same (by decide)

section Recognition

variable {deployment : Deployment} {config : Config (service deployment)}
variable {world : World} {row : PaymentIntent} {envelope : EnvelopeRequest} {tx : Transaction}

/-- The payment of the envelope is a payment of the intent. -/
theorem HandedOut.pays (handedOut : HandedOut config row envelope)
    (documented : deployment.libraries.Documented)
    (sound : row.asset = "native" ↔ row.assetIssuer = none) {operation : Operation}
    (carriesOut : operation.CarriesOut envelope) : operation.Pays row where
  isPayment := carriesOut.isPayment
  destination := carriesOut.destination.trans handedOut.destination
  asset := by
    have moves := carriesOut.asset
    have denotes := handedOut.asset
    generalize envelope.asset = asset at moves denotes
    generalize row.asset = code at denotes sound ⊢
    generalize row.assetIssuer = assetIssuer at denotes sound ⊢
    cases denotes with
    | native => exact .inl ⟨rfl, moves⟩
    | issued _ issuer _ made =>
        obtain rfl := documented.newAsset _ _ _ made
        obtain ⟨isCode, isIssuer⟩ := moves
        refine .inr ⟨fun native => ?_, isCode, ?_, isIssuer⟩
        · cases sound.mp native
        · rw [isIssuer]
          exact Option.some_ne_none issuer
  amount amount isAmount := by
    obtain ⟨count, shown, asked⟩ := carriesOut.amount
    obtain rfl := Option.some.inj (handedOut.amount.symm.trans isAmount)
    exact (Text.sameNumber_iff shown asked).mpr rfl

/-- The verifier accepts the transaction of the envelope if it has succeeded, and if the memo of
the intent is canonical. -/
theorem HandedOut.accepted_iff (handedOut : HandedOut config row envelope)
    (accepted : AcceptedMemo row.memo) (carriesOut : tx.CarriesOut envelope) :
    tx.Accepted row ↔ tx.successful = true ∧ Text.Canonical row.memo := by
  have isMemo : tx.memo = chainMemo row.memo := handedOut.memo ▸ carriesOut.memo
  refine and_congr_right fun _ => ?_
  rw [isMemo, ← Text.repr_numeralValue_iff accepted.1]
  constructor
  · intro matching
    obtain ⟨-, rendered⟩ := memo_of_memoMatches matching
    rw [render_chainMemo accepted] at rendered
    exact Option.some.inj rendered
  · intro printed
    rw [render_chainMemo accepted, printed]
    simp [memoMatches, chainMemo, Memo.type]

theorem Transaction.Fulfils.accepted (fulfils : tx.Fulfils row) : tx.Accepted row :=
  ⟨fulfils.successful, by simp [memoMatches, fulfils.memoType, fulfils.memo]⟩

/-- The records of the transaction of the envelope match the intent and come from its payer. -/
theorem HandedOut.record (handedOut : HandedOut config row envelope)
    (documented : deployment.libraries.Documented)
    (sound : row.asset = "native" ↔ row.assetIssuer = none) (carriesOut : tx.CarriesOut envelope) :
    ∃ op, tx.payments = [op] ∧ paymentMatches row op = true ∧ some op.fromAccount = row.source := by
  obtain ⟨operation, only, carries⟩ := carriesOut.operation
  have isPayment : operation.type ∈ Transaction.paymentTypes := by
    rw [carries.isPayment]
    decide
  have pays := handedOut.pays documented sound carries
  have kept : (tx.operations.filter fun operation => operation.type ∈ Transaction.paymentTypes) =
      [operation] := by
    simp [only, isPayment]
  refine ⟨⟨operation.type, tx.hash, operation.fromAccount, operation.toAccount,
    operation.assetType, operation.assetCode, operation.assetIssuer, operation.amount⟩, ?_,
    paymentMatches_iff.mpr ⟨pays.isPayment, pays.destination, pays.asset, pays.amount⟩, ?_⟩
  · rw [Transaction.payments, kept, List.map_singleton]
  · rw [handedOut.payer, ← carries.payer]

/-- Whoever submits the envelope is recognised as the payer of the intent. -/
structure Recognised (row : PaymentIntent) (envelope : EnvelopeRequest) : Prop where
  byHash : ∀ (world : World) (tx : Transaction),
    world.ledger.find? (tx.network, tx.hash) = some tx → tx.CarriesOut envelope →
      ∃ result, world.verdict (verifyByHash row tx.hash) = .ok result ∧
        (result.valid = true ↔ tx.successful = true ∧ Text.Canonical row.memo) ∧
        (result.valid = true → result.txHash = some tx.hash ∧ result.payer = row.source)
  bySearch : ∀ (world : World) (tx : Transaction),
    world.ledger.find? (tx.network, tx.hash) = some tx → tx.CarriesOut envelope →
      tx.successful = true → Text.Canonical row.memo →
      (world.account? row.network row.destination).isSome = true →
      (∃ op ∈ (world.recordsOf row.network row.destination).reverse.take 50,
        op.transactionHash = tx.hash) →
      ∃ result, world.verdict (findMatchingPayment row) = .ok result ∧ result.valid = true

theorem HandedOut.recognised (handedOut : HandedOut config row envelope)
    (documented : deployment.libraries.Documented) (wellFormed : row.WellFormed) :
    Recognised row envelope where
  byHash world tx landed carriesOut := by
    have accepted : AcceptedMemo row.memo := wellFormed.memo
    obtain ⟨op, only, matching, isPayer⟩ :=
      handedOut.record documented wellFormed.asset carriesOut
    have isNetwork : tx.network = row.network :=
      passphrase_injective (carriesOut.passphrase.trans handedOut.passphrase)
    rw [isNetwork] at landed
    rw [verdict_of_landed landed]
    refine ⟨_, rfl, ?_⟩
    have paid : (tx.payments.take 10).find? (paymentMatches row) = some op := by
      rw [only]
      exact List.find?_cons_of_pos matching
    rw [← handedOut.accepted_iff accepted carriesOut]
    by_cases isAccepted : tx.Accepted row
    · rw [judge_of_some isAccepted paid]
      exact ⟨⟨fun _ => isAccepted, fun _ => rfl⟩, fun _ => ⟨rfl, isPayer⟩⟩
    · have invalid : (judge row tx).valid ≠ true :=
        fun valid => isAccepted (fulfils_of_judge valid).2.accepted
      exact ⟨⟨fun valid => absurd valid invalid, fun other => absurd other isAccepted⟩,
        fun valid => absurd valid invalid⟩
  bySearch world tx landed carriesOut successful canonical account listed := by
    have accepted : AcceptedMemo row.memo := wellFormed.memo
    obtain ⟨record, only, matching, -⟩ :=
      handedOut.record documented wellFormed.asset carriesOut
    have isNetwork : tx.network = row.network :=
      passphrase_injective (carriesOut.passphrase.trans handedOut.passphrase)
    rw [isNetwork] at landed
    have isAccepted := (handedOut.accepted_iff accepted carriesOut).mpr ⟨successful, canonical⟩
    obtain ⟨op, inPage, isHash⟩ := listed
    have onChain := List.mem_of_mem_filter (List.mem_reverse.mp (List.mem_of_mem_take inPage))
    obtain ⟨other, isOther, -, inTx⟩ := exists_tx_of_paymentsOn onChain
    rw [isHash] at isOther
    obtain rfl := Option.some.inj (landed.symm.trans isOther)
    rw [only, List.mem_singleton] at inTx
    subst inTx
    have isFulfilled : fulfils world row op = true := by
      rw [fulfils, matching, isHash, landed, Option.any_some, decide_eq_true isAccepted]
      rfl
    obtain ⟨holder, isHolder⟩ := Option.isSome_iff_exists.mp account
    rw [verdict_findMatchingPayment, isHolder]
    refine ⟨_, rfl, ?_⟩
    obtain ⟨detected, isDetected⟩ : ∃ detected, ((world.recordsOf row.network
        row.destination).reverse.take 50).find? (fulfils world row) = some detected :=
      Option.isSome_iff_exists.mp (List.find?_isSome.mpr ⟨op, inPage, isFulfilled⟩)
    simp only [isDetected]
    rfl

end Recognition

/-- Every stored TX intent has the envelope that was built from what it says, and keeps it and
its payer as long as it is stored.  Submitted as it is, the envelope is recognised as the payment
of the intent by its payer, if and only if it succeeds and the memo is canonical. -/
theorem envelopes_recognised {deployment : Deployment} {state : World}
    {config : Config (service deployment)} (documented : deployment.libraries.Documented)
    (start : state.store = .empty) (run : AdmittedRun (Config.initial state) config) {id : String}
    {row : PaymentIntent} (found : config.state.store.find? .paymentIntent id = some row)
    (isTx : row.kind = .tx) :
    ∃ envelope, (∀ config' shown, AdmittedRun config config' →
        config'.state.store.find? .paymentIntent id = some shown →
        HandedOut config' shown envelope) ∧ Recognised row envelope := by
  obtain ⟨envelope, handedOut⟩ := (intact_of_run documented start run).handedOut id row found isTx
  refine ⟨envelope, fun config' shown later isShown => ?_,
    handedOut.recognised documented (wellFormed_of_stored run start found)⟩
  exact HandedOut.run documented start run later found isTx handedOut isShown

def Sample.txDto (memo : String) : CreateTxPaymentIntentDto where
  source := payer
  destination := destination
  amount := "25.5"
  assetCode := .undefined
  assetIssuer := .undefined
  memo := .value memo
  msg := .undefined
  callback := .undefined

/-- A TX intent has been created. -/
def txIntentCreated : Config (service Sample.deployment) :=
  after (fun _ label => decide (IssuesAdmitted label))
    ([.issue (.paymentIntents (.createTx (Sample.caller "alice") (Sample.txDto "7"))),
      .resume 0 (.draw "c")] ++ Sample.serve 0 4 ++ [.resume 0 (.draw "pi")])
    Sample.start

theorem documented_sample : Sample.deployment.libraries.Documented where
  newAsset := by
    rintro code issuer asset ⟨⟩
    rfl
  address := by decide

theorem envelopes_recognised_of_txIntent :
    ∃ row, txIntentCreated.state.store.find? .paymentIntent "pi" = some row ∧
      row.source = some Sample.payer ∧ ∃ envelope,
        (∀ config' shown, AdmittedRun txIntentCreated config' →
          config'.state.store.find? .paymentIntent "pi" = some shown →
          HandedOut config' shown envelope) ∧ Recognised row envelope := by
  have stored : (txIntentCreated.state.store.find? .paymentIntent "pi").map
      (fun row => (row.kind, row.source)) = some (.tx, some Sample.payer) := by
    decide +kernel
  obtain ⟨row, found, shows⟩ := Option.map_eq_some_iff.mp stored
  obtain ⟨isTx, isPayer⟩ := Prod.mk.inj shows
  have run : AdmittedRun Sample.start txIntentCreated :=
    run_after (fun _ _ admitted => of_decide_eq_true admitted) _ _
  exact ⟨row, found, isPayer, envelopes_recognised documented_sample rfl run found isTx⟩

end CosmosPay
