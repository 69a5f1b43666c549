import CosmosPay.Payment
import CosmosPay.Settlement

/-!
# Who paid

A settlement writes its hash always, and the payer only where it has read no source.  The
two agree unless a settlement that leaves the source out overtakes one by another payer.
-/

namespace CosmosPay

open Awaiting Tables PaymentIntents

/-- The account made a payment of the intent in this transaction. -/
def SentBy (ledger : Table ledgerIndexes) (intent : PaymentIntent) (hash account : String) :
    Prop :=
  ∃ tx ∈ ledger.find? (intent.network, hash), ∃ operation ∈ tx.operations,
    operation.Pays intent ∧ operation.fromAccount = account

instance (ledger : Table ledgerIndexes) (intent : PaymentIntent) (hash account : String) :
    Decidable (SentBy ledger intent hash account) :=
  inferInstanceAs (Decidable (∃ tx ∈ ledger.find? (intent.network, hash), _))

/-- The source of the intent made a payment of it in the transaction whose hash it carries. -/
def PaymentIntent.Credited (intent : PaymentIntent) (ledger : Table ledgerIndexes) : Prop :=
  ∃ hash ∈ intent.txHash, ∃ account ∈ intent.source, SentBy ledger intent hash account

/-- Every settled PAY intent is credited to an account that paid it. -/
def SettledAreCredited (world : World) : Prop :=
  ∀ id row, world.store.find? .paymentIntent id = some row → row.kind = .pay →
    row.status = .succeeded → row.Credited world.ledger

section Ledgers

variable {ledger later : Table ledgerIndexes} {first second intent : PaymentIntent}
variable {hash account : String}

theorem Operation.Pays.of_terms_eq {operation : Operation} (pays : operation.Pays first)
    (same : first.terms = second.terms) : operation.Pays second := by
  have destinations : first.terms.destination = second.terms.destination := by rw [same]
  have assets : first.terms.asset = second.terms.asset := by rw [same]
  have issuers : first.terms.assetIssuer = second.terms.assetIssuer := by rw [same]
  have amounts : first.terms.amount = second.terms.amount := by rw [same]
  obtain ⟨isPayment, destination, asset, amount⟩ := pays
  refine ⟨isPayment, destination.trans destinations, ?_, fun given isGiven => ?_⟩
  · rw [← show first.asset = second.asset from assets,
      ← show first.assetIssuer = second.assetIssuer from issuers]
    exact asset
  · exact amount given (amounts.trans isGiven)

theorem SentBy.of_terms_eq (sent : SentBy ledger first hash account)
    (same : first.terms = second.terms) : SentBy ledger second hash account := by
  obtain ⟨tx, found, operation, member, pays, isSender⟩ := sent
  rw [network_of_terms_eq same] at found
  exact ⟨tx, found, operation, member, pays.of_terms_eq same, isSender⟩

theorem SentBy.mono (sent : SentBy ledger intent hash account)
    (grows : ∀ key tx, ledger.find? key = some tx → later.find? key = some tx) :
    SentBy later intent hash account := by
  obtain ⟨tx, found, payment⟩ := sent
  exact ⟨tx, grows _ _ found, payment⟩

theorem PaymentIntent.Credited.mono (credited : intent.Credited ledger)
    (grows : ∀ key tx, ledger.find? key = some tx → later.find? key = some tx) :
    intent.Credited later := by
  obtain ⟨hash, isHash, account, isSource, sent⟩ := credited
  exact ⟨hash, isHash, account, isSource, sent.mono grows⟩

end Ledgers

section Runs

variable {deployment : Deployment}

/-- A settlement that leaves out the source of a PAY intent writes the hash of a transaction in
which the recorded source paid it. -/
def Creditable (config : Config (service deployment)) (label : Label (service deployment)) :
    Prop :=
  ∀ commit ∈ committed config label, commit.patch.source = .undefined →
    commit.patch.status = .value .succeeded → ∀ hash ∈ commit.patch.txHash.toOption,
    ∀ row ∈ (World.store config.state).find? .paymentIntent commit.id, row.kind = .pay →
      ∃ account ∈ row.source, SentBy (World.ledger config.state) row hash account

instance (config : Config (service deployment)) (label : Label (service deployment)) :
    Decidable (Creditable config label) :=
  inferInstanceAs (Decidable (∀ commit ∈ committed config label, _))

/-- Runs without patches in which no settlement keeps a source that did not pay. -/
abbrev CreditableRun : Config (service deployment) → Config (service deployment) → Prop :=
  Run fun config label => unpatched label = true ∧ Creditable config label

variable {allows : Config (service deployment) → Label (service deployment) → Prop}
variable {config config' : Config (service deployment)} {state : World}

/-- The payer that a verdict names has sent the payment. -/
theorem sentBy_of_evidence (run : Run allows (Config.initial state) config) {thread : Nat}
    {intent : PaymentIntent} {hash : String} {payer : Option String}
    (evidence : Evidence (config.past thread) intent hash payer) :
    ∃ account, payer = some account ∧ SentBy (World.ledger config.state) intent hash account := by
  obtain ⟨tx, found, -, -, op, listed, matching, isPayer⟩ := tx_of_evidence run evidence
  obtain ⟨operation, kept, rfl⟩ := List.mem_map.mp listed
  obtain ⟨isPayment, destination, asset, amount⟩ := paymentMatches_iff.mp matching
  exact ⟨_, isPayer, tx, found, operation, List.mem_of_mem_filter kept,
    ⟨isPayment, destination, asset, amount⟩, rfl⟩

/-- A settlement writes its payer as the source, or leaves the source out. -/
theorem source_succeededPatch (hash : String) (payer : Option String)
    (current : Option (Option String)) :
    (∃ account, payer = some account ∧
        (succeededPatch hash payer current).source = .value account) ∨
      (succeededPatch hash payer current).source = .undefined := by
  simp only [succeededPatch]
  split
  · rename_i isAccount _
    exact .inl ⟨_, (truthy_eq_some.mp isAccount).1, rfl⟩
  · exact .inr rfl

theorem CreditableRun.credited_of_update (run : CreditableRun (.initial state) config)
    {thread : Nat} {choice : Choice} {request : Request} {id : String}
    {patch : PaymentIntentPatch} {old : PaymentIntent}
    (resumes : Resumes (fun config label => unpatched label = true ∧ Creditable config label)
      config config' thread choice request
      ⟨.write (.update .paymentIntent id patch), .ok (Model.apply .paymentIntent patch old)⟩)
    (found : config.state.store.find? .paymentIntent id = some old)
    (settled : (Model.apply .paymentIntent patch old).status = .succeeded)
    (isPay : old.kind = .pay) :
    (Model.apply .paymentIntent patch old).Credited config.state.ledger := by
  obtain ⟨resume, paused, -⟩ := resumes.paused
  have unpatchedRun : UnpatchedRun (.initial state) config := run.mono fun _ _ => And.left
  obtain ⟨-, marks⟩ := unpatchedRun.update_permitted paused
  cases marks with
  | succeeded intent hash payer current isIntent read evidence =>
      subst isIntent
      have sameTerms := terms_of_read run read found
      rcases source_succeededPatch hash payer current with ⟨account, isPayer, isSource⟩ | left
      · obtain ⟨other, isOther, sent⟩ := sentBy_of_evidence run evidence
        obtain rfl : account = other := Option.some.inj (isPayer.symm.trans isOther)
        refine ⟨hash, rfl, account, ?_, sent.of_terms_eq ?_⟩
        · simp [Model.apply, isSource, Field.set]
        · rw [terms_apply, sameTerms]
      · obtain ⟨account, isAccount, sent⟩ := resumes.allowed.2 _ resumes.committed_eq left rfl
          hash rfl old found isPay
        refine ⟨hash, rfl, account, ?_, sent.of_terms_eq (terms_apply _ old).symm⟩
        simpa [Model.apply, left, Field.set] using isAccount
  | failed => cases settled
  | expired => cases settled

/-- A settled PAY intent names the account that paid it as its source, in every run in which no
settlement keeps a source that did not pay. -/
theorem settled_areCredited (start : SettledAreCredited state)
    (run : CreditableRun (.initial state) config) : SettledAreCredited config.state := by
  refine run.keeps (I := fun config : Config (service deployment) =>
    SettledAreCredited config.state) start ?_
  intro before config reached credited step id row found isPay settled
  refine settled_step_of_updates (Q := fun ledger row => row.kind = .pay → row.Credited ledger)
    ?_ reached (fun id row found settled isPay => credited id row found isPay settled) step
    (fun resumes found settled isPay =>
      CreditableRun.credited_of_update reached resumes found settled isPay)
    id row found settled isPay
  rintro ledger later row grows holds isPay
  exact (holds isPay).mono grows

end Runs

/-! ## Two payers -/

/-- Another account has made the same payment in a transaction of its own. -/
def Sample.twoPayers : World :=
  { Sample.world with
    ledger := ⟨[Sample.payment '1' true 7, { Sample.payment '3' true 7 with
      operations := [⟨"payment", Sample.destination, Sample.destination, "native", none, none,
        "25.5000000"⟩] }], by decide⟩ }

/-- Two validations of a PAY intent have their answers from Horizon, one for each hash, when the
first one settles it. -/
def settledInBetween (first second : Char) : List (Label (service Sample.deployment)) :=
  Sample.create 0 "alice" "7" "c" "pi" ++
    [Sample.validate "alice" "pi" first, Sample.validate "alice" "pi" second] ++
    Sample.serve 2 3 ++ Sample.serve 3 3 ++ Sample.serve 2 2 ++ Sample.serve 3 2

/-- Both validations name the same payment. -/
def settledAgain : Config (service Sample.deployment) :=
  after (fun config label => decide (unpatched label = true ∧ Creditable config label))
    (settledInBetween '1' '1') (.initial Sample.twoPayers)

theorem settled_areCredited_of_settledAgain :
    ∃ row, settledAgain.state.store.find? .paymentIntent "pi" = some row ∧
      row.Credited settledAgain.state.ledger := by
  have shown : (settledAgain.state.store.find? .paymentIntent "pi").map
      (fun row => (row.kind, row.status)) = some (.pay, .succeeded) := by
    decide +kernel
  obtain ⟨row, found, isShown⟩ := Option.map_eq_some_iff.mp shown
  obtain ⟨isPay, settled⟩ := Prod.mk.inj isShown
  have start : SettledAreCredited Sample.twoPayers := by
    rintro id row ⟨⟩
  exact ⟨row, found, settled_areCredited start
    (run_after (fun _ _ allowed => of_decide_eq_true allowed) _ _) "pi" row found isPay settled⟩

/-- The second validation names the payment of the other account. -/
def settledByAnother : Config (service Sample.deployment) :=
  after (fun _ label => unpatched label) (settledInBetween '1' '3') (.initial Sample.twoPayers)

/-- In general the source is the payer of one settlement, and the hash that of another. -/
theorem not_settled_areCredited :
    ¬ ∀ (deployment : Deployment) (state : World) (config : Config (service deployment)),
      state.store = .empty → UnpatchedRun (.initial state) config →
      SettledAreCredited config.state := by
  intro credited
  have shown : (settledByAnother.state.store.find? .paymentIntent "pi").map
      (fun row => (row.kind, row.status)) = some (.pay, .succeeded) := by
    decide +kernel
  obtain ⟨row, found, isShown⟩ := Option.map_eq_some_iff.mp shown
  obtain ⟨isPay, settled⟩ := Prod.mk.inj isShown
  obtain ⟨hash, isHash, account, isSource, sent⟩ := credited Sample.deployment Sample.twoPayers
    settledByAnother rfl (run_after (fun _ _ checked => checked) _ _) "pi" row found isPay settled
  have differ : ∀ row ∈ settledByAnother.state.store.find? .paymentIntent "pi",
      ∀ hash ∈ row.txHash, ∀ account ∈ row.source,
        ¬ SentBy settledByAnother.state.ledger row hash account := by
    decide +kernel
  exact differ row found hash isHash account isSource sent

end CosmosPay
