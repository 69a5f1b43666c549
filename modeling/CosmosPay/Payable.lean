import CosmosPay.Contracts.Compositions

/-!
# Amounts that can be paid

The chain transfers between one and `2 ^ 63 - 1` stroops.  The body of a create request
admits every decimal with seven places; only the SDK looks at the range, and only TX
intents meet the SDK.
-/

namespace CosmosPay

open Awaiting Tables PaymentIntents

/-- An amount that a payment on the chain can have. -/
def Transferable (amount : String) : Prop :=
  ∃ count, stroops amount = some count ∧ 1 ≤ count ∧ count ≤ maxStroops

instance : DecidablePred Transferable := fun amount =>
  match counted : stroops amount with
  | none => .isFalse fun ⟨_, isCount, _⟩ => by simp [counted] at isCount
  | some count => decidable_of_iff (1 ≤ count ∧ count ≤ maxStroops)
      ⟨fun bounds => ⟨count, counted, bounds⟩, fun ⟨_, isCount, bounds⟩ =>
        Option.some.inj (counted.symm.trans isCount) ▸ bounds⟩

/-- `Operation.payment` throws for amounts of zero and amounts above the largest. -/
def Libraries.ChecksAmounts (libraries : Libraries) : Prop :=
  ∀ envelope xdr, libraries.buildEnvelope envelope = .ok xdr →
    ∀ count, stroops envelope.amount = some count → 1 ≤ count ∧ count ≤ maxStroops

/-- A `pay` request that gives an amount gives one that can be transferred. -/
def Request.AsksTransferable : Request → Prop
  | .paymentIntents (.createPay _ dto) => dto.amount.Admits Transferable
  | _ => True

section Rows

variable {deployment : Deployment} {request : Request} {new : NewPaymentIntent}

/-- The amount of a composed row can be transferred if it comes from a `tx` request, or the
`pay` request asked for one that can. -/
theorem Composes.transferable_iff (checks : deployment.libraries.ChecksAmounts)
    (composes : Composes deployment request new)
    (admitted : Request.Admitted deployment.libraries request) :
    (∀ amount, new.amount = some amount → Transferable amount) ↔ request.AsksTransferable := by
  cases composes with
  | tx consumer dto owner asset memo xdr expiresAt envelope resolved amount built =>
      refine iff_of_true (fun given isGiven => ?_) trivial
      obtain rfl : dto.amount = given := Option.some.inj isGiven
      -- the SDK has built the envelope, so it has accepted the amount
      obtain ⟨count, counted⟩ := Option.isSome_iff_exists.mp (isAmount_iff.mp admitted.2.2.1)
      refine ⟨count, counted, checks envelope xdr built count ?_⟩
      rw [amount, counted]
  | pay consumer dto owner asset memo expiresAt resolved =>
      cases given : dto.amount with
      | value amount => simp [Request.AsksTransferable, payIntent, Field.toOption, Field.Admits,
          given]
      | _ => simp [Request.AsksTransferable, payIntent, Field.toOption, Field.Admits, given]

end Rows

/-- The stored amount of a created intent can be transferred if and only if the request was a
`tx` request, or gave no amount, or gave one that can be transferred. -/
theorem stored_amount_transferable_iff {deployment : Deployment} {state : World}
    {config : Config (service deployment)} (checks : deployment.libraries.ChecksAmounts)
    (run : AdmittedRun (Config.initial state) config) {maker : Nat} {request : Request}
    {code : Program signature Reply} (issued : config.threads[maker]? = some ⟨request, code⟩)
    {row : PaymentIntent} (inserted : Inserted config maker row) :
    (∀ amount, row.amount = some amount → Transferable amount) ↔ request.AsksTransferable := by
  obtain ⟨request', code', new, id, createdAt, issued', composes, sameTerms⟩ :=
    inserted.composed run
  obtain ⟨rfl, -⟩ := Thread.mk.inj (Option.some.inj (issued'.symm.trans issued))
  have amounts : new.amount = row.amount := congrArg PaymentIntent.amount sameTerms
  rw [← amounts]
  exact composes.transferable_iff checks (run.admitted issued)

/-! ## An intent for nothing -/

/-- The sample deployment with an SDK that checks amounts. -/
def Sample.checkingDeployment : Deployment :=
  { Sample.deployment with
    libraries := { Sample.libraries with
      buildEnvelope := fun request =>
        if Transferable request.amount then Sample.libraries.buildEnvelope request
        else .error (.other "amount argument must be of type String and a positive number") } }

theorem Sample.checksAmounts : Sample.checkingDeployment.libraries.ChecksAmounts := by
  intro envelope xdr built count counted
  by_cases transferable : Transferable envelope.amount
  · obtain ⟨other, isOther, bounds⟩ := transferable
    obtain rfl : other = count := Option.some.inj (isOther.symm.trans counted)
    exact bounds
  · have refused : Sample.checkingDeployment.libraries.buildEnvelope envelope = .error
        (.other "amount argument must be of type String and a positive number") :=
      if_neg transferable
    rw [refused] at built
    cases built

/-- A PAY intent of the given amount. -/
def askedFor (amount : String) : Config (service Sample.checkingDeployment) :=
  after (fun _ label => decide (IssuesAdmitted label))
    [.issue (.paymentIntents (.createPay (Sample.caller "alice")
        { Sample.payDto "7" with amount := .value amount })),
      .resume 0 (.draw "c"), .resume 0 .serve, .resume 0 .serve, .resume 0 (.draw "pi")]
    (.initial Sample.world)

theorem run_askedFor (amount : String) : AdmittedRun (.initial Sample.world) (askedFor amount) :=
  run_after (fun _ _ admitted => of_decide_eq_true admitted) _ _

theorem stored_amount_transferable_iff_of_payment :
    ∃ maker request code row, (askedFor "25.5").threads[maker]? = some ⟨request, code⟩ ∧
      Inserted (askedFor "25.5") maker row ∧ row.amount = some "25.5" ∧
        ((∀ amount, row.amount = some amount → Transferable amount) ↔
          request.AsksTransferable) := by
  have shown : ((askedFor "25.5").state.store.find? .paymentIntent "pi").map
      PaymentIntent.amount = some (some "25.5") := by
    decide +kernel
  obtain ⟨row, found, isAmount⟩ := Option.map_eq_some_iff.mp shown
  obtain ⟨maker, inserted⟩ := inserted_of_stored (run_askedFor "25.5")
    (by simp [Sample.world, Store.empty]) found
  obtain ⟨request, code, -, -, -, issued, -⟩ := inserted.composed (run_askedFor "25.5")
  exact ⟨maker, request, code, row, issued, inserted, isAmount,
    stored_amount_transferable_iff Sample.checksAmounts (run_askedFor "25.5") issued inserted⟩

/-- A PAY intent for zero is stored. -/
theorem not_stored_amount_transferable :
    ¬ ∀ (deployment : Deployment) (state : World) (config : Config (service deployment)),
      deployment.libraries.ChecksAmounts → state.store = .empty →
      AdmittedRun (.initial state) config → ∀ (id : String) (row : PaymentIntent) (amount : String),
        config.state.store.find? .paymentIntent id = some row → row.amount = some amount →
        Transferable amount := by
  intro transferable
  have shown : ((askedFor "0").state.store.find? .paymentIntent "pi").map
      PaymentIntent.amount = some (some "0") := by
    decide +kernel
  obtain ⟨row, found, isAmount⟩ := Option.map_eq_some_iff.mp shown
  have refused : ¬ Transferable "0" := by decide
  exact refused (transferable Sample.checkingDeployment Sample.world (askedFor "0")
    Sample.checksAmounts rfl (run_askedFor "0") "pi" row "0" found isAmount)

end CosmosPay
