import CosmosPay.Chain
import CosmosPay.Contracts.Creations
import CosmosPay.Contracts.Transitions

/-!
# Settled intents are paid

An operation that is in flight holds intents that it read some time ago.  The terms it
read are still those of the stored row, because no statement changes them and no id is
drawn twice.  A verdict on what was read is therefore one on what is stored.
-/

namespace CosmosPay

open Awaiting Tables PaymentIntents

/-! ## Terms -/

/-- A returned intent is stored. -/
theorem Performs.find?_of_returned {before after : World} {performed : Performed signature}
    (performs : Performs before after performed) {intent : PaymentIntent}
    (returned : intent ∈ returnedIntents performed) :
    after.store.find? .paymentIntent intent.id = some intent := by
  obtain ⟨call, result⟩ := performed
  cases result with
  | error err => cases returned
  | ok answer =>
      change intent ∈ call.returnedIntents answer at returned
      cases call with
      | query asked =>
          obtain ⟨rfl, order, found⟩ := of_query performs
          cases asked with
          | intentByMemo consumerId memo =>
              obtain rfl := Option.some.inj found
              have isFound := Option.mem_toList.mp returned
              exact Table.find?_key (List.mem_of_find?_eq_some isFound)
          | intentOwned id username =>
              obtain rfl := Option.some.inj found
              have isFound := Option.mem_toList.mp returned
              obtain ⟨lookup, -⟩ := Option.filter_eq_some_iff.mp isFound
              exact Table.find?_key (Table.mem_of_find? lookup)
          | expiredIntents now take =>
              obtain ⟨arranged, isArranged, rfl⟩ := Option.map_eq_some_iff.mp found
              obtain ⟨-, kept⟩ := batch_of_arranged take isArranged
              obtain ⟨row, member, rfl⟩ := List.mem_map.mp returned
              exact Table.find?_key (kept row member).1
          | pendingIntents take =>
              obtain ⟨arranged, isArranged, rfl⟩ := Option.map_eq_some_iff.mp found
              obtain ⟨inOrder, -⟩ := Option.filter_eq_some_iff.mp isArranged
              obtain ⟨-, kept⟩ := batch_of_arranged take inOrder
              obtain ⟨row, member, rfl⟩ := List.mem_map.mp returned
              exact Table.find?_key (kept row member).1
          | _ => cases returned
      | write statement =>
          cases statement with
          | upsertConsumer username credentialId => cases returned
          | create model new =>
              cases model with
              | paymentIntent =>
                  obtain ⟨drawn, -, rfl, change⟩ := of_create performs
                  obtain rfl := List.mem_singleton.mp returned
                  exact (change.lookup _).trans (if_pos rfl)
              | _ => cases returned
          | update model key patch =>
              cases model with
              | paymentIntent =>
                  obtain ⟨old, rfl, change⟩ := of_update performs
                  obtain rfl := List.mem_singleton.mp returned
                  have isKey : (Model.apply .paymentIntent patch old).id = key :=
                    (Model.key_apply .paymentIntent patch old).trans
                      (Table.key_of_find? change.found)
                  exact (change.lookup _).trans (if_pos isKey.symm)
              | _ => cases returned
          | delete model key => cases model <;> cases returned
      | _ => cases returned

/-- If the intent is still stored, then with these terms. -/
def KeepsTerms (intent : PaymentIntent) (world : World) : Prop :=
  intent.id ∈ world.store.issued ∧ ∀ row,
    world.store.find? .paymentIntent intent.id = some row → row.terms = intent.terms

theorem keepsTerms_stable (intent : PaymentIntent) : Stable (KeepsTerms intent) where
  performs performs kept := by
    obtain ⟨known, same⟩ := kept
    refine ⟨performs.issued _ known, fun row found => ?_⟩
    obtain ⟨old, oldFound, sameTerms⟩ :=
      performs.column_eq PaymentIntent.terms terms_apply known found
    rw [sameTerms, same old oldFound]
  drifts drifts kept := by rwa [KeepsTerms, drifts.store]

section Runs

variable {deployment : Deployment}
variable {allows : Config (service deployment) → Label (service deployment) → Prop}
variable {config config' : Config (service deployment)} {state : World}

/-- What a thread has read of an intent are its terms today. -/
theorem terms_of_read (run : Run allows (Config.initial state) config) {thread : Nat}
    {intent row : PaymentIntent} (read : HasRead (config.past thread) intent)
    (found : config.state.store.find? .paymentIntent intent.id = some row) :
    row.terms = intent.terms := by
  obtain ⟨performed, member, returned⟩ := read
  have kept : KeepsTerms intent config.state := by
    obtain ⟨before, after, choice, request, -, resumes, later, -⟩ :=
      exists_resumes_of_mem run (mem_pastOf.mp member)
    refine (keepsTerms_stable intent).run later ?_
    have stored := resumes.performs.find?_of_returned returned
    refine ⟨Store.issued_of_find? stored, fun row found => ?_⟩
    rw [Option.some.inj (found.symm.trans stored)]
  exact kept.2 row found

/-- The rows that a request inserts are pending. -/
theorem pending_of_create (run : Run allows (Config.initial state) config) {thread : Nat}
    {request : Request} {new : NewPaymentIntent}
    {resume : signature.Result (.write (.create .paymentIntent new)) → Promise Reply}
    (paused : config.threads[thread]? =
      some ⟨request, .await (.write (.create .paymentIntent new)) resume⟩) :
    new.status = .pending := by
  have creates : permitsCreation deployment request (config.past thread)
      (.write (.create .paymentIntent new)) := run.permitted creations_fulfilled paused
  have transits : permitsTransition request (config.past thread)
      (.write (.create .paymentIntent new)) := run.permitted transitions_fulfilled paused
  simp only [permitsTransition] at transits
  split at transits
  · exact (creates _ rfl).pending
  · exact (creates _ rfl).pending
  · exact transits.elim

/-- What holds of the settled rows goes on to hold if it holds of those that an update
settles. -/
theorem settled_step_of_updates {Q : Table ledgerIndexes → PaymentIntent → Prop}
    (mono : ∀ {ledger later : Table ledgerIndexes} {row : PaymentIntent},
      (∀ key tx, ledger.find? key = some tx → later.find? key = some tx) → Q ledger row →
        Q later row)
    (run : Run allows (Config.initial state) config)
    (holds : ∀ id row, config.state.store.find? .paymentIntent id = some row →
      row.status = .succeeded → Q config.state.ledger row)
    (step : Step allows config config')
    (updates : ∀ {thread : Nat} {choice : Choice} {request : Request} {id : String}
      {patch : PaymentIntentPatch} {old : PaymentIntent},
      Resumes allows config config' thread choice request
        ⟨.write (.update .paymentIntent id patch), .ok (Model.apply .paymentIntent patch old)⟩ →
      config.state.store.find? .paymentIntent id = some old →
      (Model.apply .paymentIntent patch old).status = .succeeded →
        Q config.state.ledger (Model.apply .paymentIntent patch old)) :
    ∀ id row, config'.state.store.find? .paymentIntent id = some row →
      row.status = .succeeded → Q config'.state.ledger row := by
  intro id row found settled
  have grows : ∀ key tx, config.state.ledger.find? key = some tx →
      config'.state.ledger.find? key = some tx := fun _ _ => step_ledger step
  have carry : config.state.store.find? .paymentIntent id = some row →
      Q config'.state.ledger row := fun old => mono grows (holds id row old settled)
  rcases step_cases step with ⟨-, drifts⟩ | ⟨thread, choice, request, performed, resumes⟩
  · rw [drifts.store] at found
    exact carry found
  cases resumes.performs.rows .paymentIntent with
  | kept same => exact carry ((same id).symm.trans found)
  | created new drawn createdAt isCreate _ change =>
      rw [change.lookup] at found
      split at found
      · obtain rfl := Option.some.inj found
        subst isCreate
        obtain ⟨resume, paused, -⟩ := resumes.paused
        rw [show (Model.make .paymentIntent new drawn createdAt).status = new.status from rfl,
          pending_of_create run paused] at settled
        cases settled
      · exact carry found
  | updated key patch old isUpdate change =>
      rw [change.lookup] at found
      split at found
      · obtain rfl := Option.some.inj found
        subst isUpdate
        exact mono grows (updates resumes change.found settled)
      · exact carry found
  | deleted key old _ change =>
      rw [change.lookup] at found
      split at found
      · cases found
      · exact carry found
  | cascaded key old isDelivery => cases isDelivery

end Runs

/-! ## Payment -/

/-- Every settled intent is paid by the transaction whose hash it carries. -/
def SettledArePaid (world : World) : Prop :=
  ∀ id row, world.store.find? .paymentIntent id = some row → row.status = .succeeded →
    ∃ hash, row.txHash = some hash ∧ PaidBy world.ledger row hash

/-- A patch request changes nothing but the reference. -/
def Request.patchesReferences : Request → Bool
  | .paymentIntents (.update _ _ dto) =>
      (patchOf dto).status = .undefined ∧ dto.txHash = .undefined
  | _ => true

section Settlements

variable {deployment : Deployment}

/-- Runs in which a patch changes nothing but the reference. -/
abbrev ReferenceRun : Config (service deployment) → Config (service deployment) → Prop :=
  Run fun _ label => issues Request.patchesReferences label = true

variable {config config' : Config (service deployment)} {state : World}

/-- A settling update follows a verdict on an intent that its thread has read. -/
theorem ReferenceRun.paid_of_update (run : ReferenceRun (.initial state) config)
    (paid : SettledArePaid config.state) {index : Nat} {request : Request} {id : String}
    {patch : PaymentIntentPatch} {old : PaymentIntent}
    {resume : signature.Result (.write (.update .paymentIntent id patch)) → Promise Reply}
    (paused : config.threads[index]? =
      some ⟨request, .await (.write (.update .paymentIntent id patch)) resume⟩)
    (found : config.state.store.find? .paymentIntent id = some old)
    (settled : (Model.apply .paymentIntent patch old).status = .succeeded) :
    ∃ hash, (Model.apply .paymentIntent patch old).txHash = some hash ∧
      PaidBy config.state.ledger (Model.apply .paymentIntent patch old) hash := by
  have permitted : permitsTransition request (config.past index)
      (.write (.update .paymentIntent id patch)) := run.permitted transitions_fulfilled paused
  have references := request_admitted (fun _ => rfl) run paused
  have marked : Marks (config.past index) id patch →
      ∃ hash, (Model.apply .paymentIntent patch old).txHash = some hash ∧
        PaidBy config.state.ledger (Model.apply .paymentIntent patch old) hash := by
    intro marks
    cases marks with
    | succeeded intent hash payer current isIntent read evidence =>
        subst isIntent
        have sameTerms := terms_of_read run read found
        refine ⟨hash, rfl, (paidBy_of_evidence run evidence).of_terms_eq ?_⟩
        rw [terms_apply, sameTerms]
    | failed => cases settled
    | expired => cases settled
  simp only [permitsTransition] at permitted
  split at permitted
  · -- a patch that leaves the status and the hash alone
    rename_i consumer key dto
    obtain ⟨-, rfl, -⟩ := permitted
    obtain ⟨noStatus, noHash⟩ : (patchOf dto).status = .undefined ∧ dto.txHash = .undefined := by
      simpa [Request.patchesReferences] using references
    have isNoHash : (patchOf dto).txHash = .undefined := noHash
    have sameStatus : (Model.apply .paymentIntent (patchOf dto) old).status = old.status := by
      simp [Model.apply, noStatus, Field.setRequired, Field.toOption]
    have sameHash : (Model.apply .paymentIntent (patchOf dto) old).txHash = old.txHash := by
      simp [Model.apply, isNoHash, Field.set]
    rw [sameStatus] at settled
    obtain ⟨hash, isHash, paidBy⟩ := paid id old found settled
    exact ⟨hash, sameHash.trans isHash, paidBy.of_terms_eq rfl⟩
  · exact marked permitted.2.2
  · exact marked permitted.2
  · exact permitted.elim

theorem SettledArePaid.step (run : ReferenceRun (.initial state) config)
    (paid : SettledArePaid config.state)
    (step : Step (fun _ label => issues Request.patchesReferences label = true) config config') :
    SettledArePaid config'.state := by
  refine settled_step_of_updates (Q := fun ledger row => ∃ hash, row.txHash = some hash ∧
    PaidBy ledger row hash) ?_ run paid step fun resumes found settled => ?_
  · rintro ledger later row grows ⟨hash, isHash, paidBy⟩
    exact ⟨hash, isHash, paidBy.mono grows⟩
  · obtain ⟨resume, paused, -⟩ := resumes.paused
    exact run.paid_of_update paid paused found settled

/-- The service never settles an unpaid intent: in every configuration that is reached
while patches change nothing but the reference, a settled intent carries the hash of a
transaction on its network that fulfils it. -/
theorem settled_arePaid (start : SettledArePaid state)
    (run : ReferenceRun (.initial state) config) : SettledArePaid config.state := by
  refine run.keeps (I := fun config : Config (service deployment) =>
    SettledArePaid config.state) start ?_
  intro middle config before paid step
  exact paid.step before step

/-- A validation and a tick of the observer settle the same intent. -/
def validationDuringTick : Config (service Sample.deployment) :=
  after (fun _ label => issues Request.patchesReferences label)
    (Sample.create 0 "alice" "7" "c" "pi" ++
      [Sample.validate "alice" "pi" '1', .issue (.tick 0)] ++
      Sample.serve 2 3 ++ Sample.serve 3 2 ++
      [.resume 3 (.arrange []), .resume 3 (.arrange ["pi"])] ++
      Sample.serve 3 2 ++ Sample.serve 2 2 ++ Sample.serve 3 2)
    Sample.start

theorem settled_arePaid_of_validationDuringTick :
    ∃ row hash, validationDuringTick.state.store.find? .paymentIntent "pi" = some row ∧
      row.txHash = some hash ∧ PaidBy validationDuringTick.state.ledger row hash := by
  have shown : (validationDuringTick.state.store.find? .paymentIntent "pi").map
      PaymentIntent.status = some .succeeded := by
    decide +kernel
  obtain ⟨row, found, settled⟩ := Option.map_eq_some_iff.mp shown
  have start : SettledArePaid Sample.world := by
    rintro id row ⟨⟩
  obtain ⟨hash, isHash, paid⟩ :=
    settled_arePaid start (run_after (fun _ _ checked => checked) _ _) "pi" row found settled
  exact ⟨row, hash, found, isHash, paid⟩

end Settlements

end CosmosPay
