import CosmosPay.Contracts.Readings
import CosmosPay.Lookups
import CosmosPay.Provenance

/-!
# Which Horizon is asked

The network of an intent follows from the key that it was created with.  Whatever is in flight,
Horizon is asked on that network, by whoever looks for the payment and whenever that is.
-/

namespace CosmosPay

open Awaiting Tables PaymentIntents

def HorizonCall.network : HorizonCall → StellarNetwork
  | .loadAccount network _ => network
  | .transaction network _ => network
  | .paymentsForTransaction network _ => network
  | .paymentsForAccount network _ _ => network

theorem HorizonCall.Concerns.network_eq {lookup : HorizonCall} {intent : PaymentIntent}
    (concerns : lookup.Concerns intent) : lookup.network = intent.network := by
  cases lookup with
  | loadAccount => exact concerns.elim
  | transaction => exact concerns
  | paymentsForTransaction => exact concerns
  | paymentsForAccount => exact concerns.1

section Runs

variable {deployment : Deployment}
variable {allows : Config (service deployment) → Label (service deployment) → Prop}
variable {config config' : Config (service deployment)} {state : World}

/-- What Horizon is asked for: the source account of an intent that is being created, or the
payments of one that has been created and read. -/
inductive Occasion (config : Config (service deployment)) (thread : Nat) (lookup : HorizonCall) :
    Creation → Prop where
  | creation (consumer : GatewayConsumer) (dto : CreateTxPaymentIntentDto) (code : Promise Reply)
      (isThread : config.threads[thread]? =
        some ⟨.paymentIntents (.createTx consumer dto), code⟩)
      (isLookup : lookup = .loadAccount (resolveNetwork deployment consumer) dto.source) :
      Occasion config thread lookup ⟨.tx, consumer, dto.memo⟩
  | verification (maker : Nat) (creation : Creation) (intent : PaymentIntent)
      (made : MadeBy config maker creation intent) (read : HasRead (config.past thread) intent)
      (concerns : lookup.Concerns intent) :
      Occasion config thread lookup creation

/-- An occasion is on the network of the key that the intent is created with. -/
theorem Occasion.network_eq {thread : Nat} {lookup : HorizonCall} {creation : Creation}
    (occasion : Occasion config thread lookup creation) :
    lookup.network = resolveNetwork deployment creation.consumer := by
  cases occasion with
  | creation consumer dto code isThread isLookup => rw [isLookup, HorizonCall.network]
  | verification maker creation intent made read concerns =>
      exact concerns.network_eq.trans made.network

/-- An intent that a thread has read was made by a create request. -/
theorem madeBy_of_read (start : state.store = .empty)
    (run : Run allows (Config.initial state) config) {thread : Nat} {intent : PaymentIntent}
    (read : HasRead (config.past thread) intent) :
    ∃ maker creation, MadeBy config maker creation intent := by
  obtain ⟨performed, member, returned⟩ := read
  obtain ⟨before, after, choice, request, reached, resumes, later, -⟩ :=
    exists_resumes_of_mem run (mem_pastOf.mp member)
  have stored := resumes.performs.find?_of_returned returned
  obtain ⟨maker, inserted⟩ := inserted_of_stored (reached.tail resumes.step)
    (by simp [start, Store.empty]) stored
  obtain ⟨creation, made⟩ := (inserted.mono (trace_subset later) rfl).madeBy run
  exact ⟨maker, creation, made⟩

/-- Whatever Horizon is asked is asked on the network of the key that the intent in question was
or is being created with. -/
theorem lookups_on_network (start : state.store = .empty)
    (run : Run allows (Config.initial state) config) {thread : Nat} {lookup : HorizonCall}
    {answer : Except ServiceError lookup.Answer}
    (made : ⟨thread, .horizon lookup, answer⟩ ∈ config.trace) :
    ∃ creation, Occasion config thread lookup creation ∧
      lookup.network = resolveNetwork deployment creation.consumer := by
  suffices occurs : ∃ creation, Occasion config thread lookup creation by
    obtain ⟨creation, occasion⟩ := occurs
    exact ⟨creation, occasion, occasion.network_eq⟩
  obtain ⟨before, after, choice, request, reached, resumes, later, code, lookupThread⟩ :=
    exists_resumes_of_mem run made
  obtain ⟨resume, paused, -⟩ := resumes.paused
  have reads : permitsReading deployment request (before.past thread) (.horizon lookup) :=
    reached.permitted readings_fulfilled paused
  have verifies : ReadsFirst (before.past thread) (.horizon lookup) →
      ∃ creation, Occasion config thread lookup creation := by
    rintro ⟨intent, ⟨performed, member, returned⟩, concerns⟩
    have grows : before.past thread ⊆ config.past thread :=
      List.Subset.trans resumes.past_subset (past_subset later thread)
    have read : HasRead (config.past thread) intent := ⟨performed, grows member, returned⟩
    obtain ⟨maker, creation, made⟩ := madeBy_of_read start run read
    exact ⟨creation, .verification maker creation intent made read concerns⟩
  -- no other request asks Horizon at all
  have charged : 0 < horizonQuota deployment request := by
    refine Nat.lt_of_lt_of_le ?_ (run.charges_le lookups_fulfilled lookupThread)
    exact List.countP_pos_iff.mpr ⟨_, mem_pastOf.mpr made, rfl⟩
  cases request with
  | paymentIntents request =>
      cases request with
      | createTx consumer dto =>
          exact ⟨_, .creation consumer dto code lookupThread (reads lookup rfl)⟩
      | validate consumer id hash => exact verifies reads
      | _ => cases charged
  | tick node => exact verifies reads
  | _ => cases charged

end Runs

theorem exists_lookup_of_any {trace : List (Entry signature)} {thread : Nat}
    (asks : trace.any (fun entry =>
      decide (entry.thread = thread) && entry.performed.call.asksHorizon) = true) :
    ∃ lookup answer, ⟨thread, .horizon lookup, answer⟩ ∈ trace := by
  obtain ⟨⟨owner, call, answer⟩, member, checked⟩ := List.any_eq_true.mp asks
  obtain ⟨isOwner, isHorizon⟩ := Bool.and_eq_true_iff.mp checked
  obtain rfl := of_decide_eq_true isOwner
  cases call with
  | horizon lookup => exact ⟨lookup, answer, member⟩
  | _ => cases isHorizon

/-- The tick asks on the network of the key that has created the intent. -/
theorem lookups_on_network_of_lookedUpTwice : ∃ lookup creation,
    Occasion lookedUpTwice 3 lookup creation ∧
      lookup.network = resolveNetwork Sample.deployment creation.consumer := by
  obtain ⟨lookup, answer, made⟩ : ∃ lookup answer,
      ⟨3, .horizon lookup, answer⟩ ∈ lookedUpTwice.trace :=
    exists_lookup_of_any (by decide +kernel)
  have run : Run (fun _ _ => true = true) Sample.start lookedUpTwice :=
    run_after (fun _ _ checked => checked) _ _
  obtain ⟨creation, occasion, isNetwork⟩ := lookups_on_network rfl run made
  exact ⟨lookup, creation, occasion, isNetwork⟩

end CosmosPay
