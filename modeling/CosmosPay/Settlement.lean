import CosmosPay.Contracts.Announcements
import CosmosPay.Contracts.Transitions

/-!
# Settlement

A settlement is a committed statement that leaves an intent `SUCCEEDED`.  The
helpers that finalize an intent decide on a sighting of it and write later, so a
settlement can be overtaken: it commits between the sighting that another operation
acts on and the write of that operation.  Where no write is overtaken, settlement is
final and announced once.
-/

namespace CosmosPay

open Awaiting Tables PaymentIntents

/-- The hash with which a successful call leaves the intent `id` settled. -/
def Call.settles (id : String) : (call : Call) → call.Answer → Option (Option String)
  | .write (.create .paymentIntent _), row =>
      if row.id = id ∧ row.status = .succeeded then some row.txHash else none
  | .write (.update .paymentIntent key _), row =>
      if key = id ∧ row.status = .succeeded then some row.txHash else none
  | _, _ => none

def settlement (id : String) (performed : Performed signature) : Option (Option String) :=
  match performed.answer with
  | .ok answer => performed.call.settles id answer
  | .error _ => none

section Overtaking

variable {deployment : Deployment}

/-- The hashes with which the intent was settled since the thread last saw it. -/
def settledSince (config : Config (service deployment)) (thread : Nat) (id : String) :
    List (Option String) :=
  (since thread (fun performed => (sighting id performed).isSome) config.trace).filterMap
    fun entry => settlement id entry.performed

/-- An update of an intent that takes effect. -/
structure Commit where
  thread : Nat
  id : String
  patch : PaymentIntentPatch

/-- The update that a step commits, if it commits one. -/
def committed (config : Config (service deployment)) :
    Label (service deployment) → Option Commit
  | .resume thread choice =>
      match config.threads[thread]? with
      | some ⟨_, .await (.write (.update .paymentIntent id patch)) _⟩ =>
          match World.perform (.write (.update .paymentIntent id patch)) choice config.state with
          | some ⟨.ok _, _, _⟩ => some ⟨thread, id, patch⟩
          | _ => none
      | _ => none
  | _ => none

/-- No update commits after a settlement of the same intent that its thread has not
seen, unless it repeats that settlement. -/
def Punctual (repeats : PaymentIntentPatch → Option String → Bool)
    (config : Config (service deployment)) (label : Label (service deployment)) : Prop :=
  ∀ commit ∈ committed config label, ∀ hash ∈ settledSince config commit.thread commit.id,
    repeats commit.patch hash = true

instance (repeats : PaymentIntentPatch → Option String → Bool)
    (config : Config (service deployment)) (label : Label (service deployment)) :
    Decidable (Punctual repeats config label) :=
  inferInstanceAs (Decidable (∀ commit ∈ committed config label, _))

variable {allows : Config (service deployment) → Label (service deployment) → Prop}
variable {config config' : Config (service deployment)}

/-- A resumed update that succeeds is the commit of its label. -/
theorem Resumes.committed_eq {thread : Nat} {choice : Choice} {request : Request} {id : String}
    {patch : PaymentIntentPatch} {row : PaymentIntent}
    (resumes : Resumes allows config config' thread choice request
      ⟨.write (.update .paymentIntent id patch), .ok row⟩) :
    committed config (.resume thread choice) = some ⟨thread, id, patch⟩ := by
  obtain ⟨resume, paused, -⟩ := resumes.paused
  obtain ⟨⟨answer, state, spawned⟩, made, isAnswer, -⟩ := resumes.answered
  change answer = .ok row at isAnswer
  subst isAnswer
  simp only [committed, paused, made]

/-- If an intent was once seen unsettled and is settled now, then it was settled in
between, with the hash that it has now. -/
theorem settled_after_sighting {state : World}
    (run : Run allows (.initial state) config)
    {newer older : List (Entry signature)} {entry : Entry signature} {id : String}
    {seen : Option PaymentIntentStatus} (split : config.trace = newer ++ entry :: older)
    (sighted : sighting id entry.performed = some seen) (unsettled : seen ≠ some .succeeded)
    {row : PaymentIntent} (found : config.state.store.find? .paymentIntent id = some row)
    (settled : row.status = .succeeded) :
    ∃ other ∈ newer, settlement id other.performed = some row.txHash := by
  revert newer row
  refine run.keeps (I := fun config : Config (service deployment) =>
    ∀ {newer : List (Entry signature)},
    config.trace = newer ++ entry :: older → ∀ {row : PaymentIntent},
      config.state.store.find? .paymentIntent id = some row → row.status = .succeeded →
        ∃ other ∈ newer, settlement id other.performed = some row.txHash) ?_ ?_
  · intro newer split
    simp [Config.initial] at split
  · intro config config' _ ih step newer split row found settled
    rcases step_cases step with ⟨sameTrace, drifts⟩ | ⟨thread, choice, request, performed, resumes⟩
    · rw [drifts.store] at found
      exact ih (sameTrace.symm.trans split) found settled
    · rw [resumes.trace] at split
      cases newer with
      | nil =>
          -- the sighting itself: it shows the status that the row has now
          obtain ⟨rfl, -⟩ := List.cons.inj split
          have shown := resumes.performs.sighting_eq sighted
          rw [found] at shown
          exact absurd (by rw [← shown, Option.map_some, settled]) unsettled
      | cons newest newer =>
          obtain ⟨rfl, rest⟩ := List.cons.inj split
          have earlier : config.state.store.find? .paymentIntent id = some row →
              ∃ other ∈ (⟨thread, performed⟩ :: newer : List (Entry signature)),
                settlement id other.performed = some row.txHash := by
            intro old
            obtain ⟨other, member, settles⟩ := ih rest old settled
            exact ⟨other, List.mem_cons_of_mem _ member, settles⟩
          cases resumes.performs.rows .paymentIntent with
          | kept same => exact earlier ((same id).symm.trans found)
          | created new drawn createdAt isCreate _ change =>
              rw [change.lookup] at found
              split at found
              · rename_i isId
                obtain rfl := Option.some.inj found
                refine ⟨_, List.mem_cons_self, ?_⟩
                rw [isCreate]
                exact if_pos ⟨isId, settled⟩
              · exact earlier found
          | updated key patch old isUpdate change =>
              rw [change.lookup] at found
              split at found
              · rename_i isId
                obtain rfl := Option.some.inj found
                refine ⟨_, List.mem_cons_self, ?_⟩
                rw [isUpdate]
                exact if_pos ⟨isId, settled⟩
              · exact earlier found
          | deleted key old _ change =>
              rw [change.lookup] at found
              split at found
              · cases found
              · exact earlier found
          | cascaded key old isDelivery => cases isDelivery

/-- A write that its own thread's history guards meets a settled row only when it has
been overtaken. -/
theorem mem_settledSince {state : World}
    (run : Run allows (.initial state) config)
    {thread : Nat} {id : String} (guarded : Guarded (config.past thread) id)
    {row : PaymentIntent} (found : config.state.store.find? .paymentIntent id = some row)
    (settled : row.status = .succeeded) : row.txHash ∈ settledSince config thread id := by
  obtain ⟨seen, last, unsettled⟩ := guarded
  obtain ⟨performed, older, sighted, split⟩ := exists_split_of_findSome? last
  obtain ⟨other, member, settles⟩ :=
    settled_after_sighting run split sighted unsettled found settled
  exact List.mem_filterMap.mpr ⟨other, member, settles⟩

end Overtaking

/-! ## Runs without patches -/

/-- Does the request patch an intent at the will of its caller? -/
def Request.patches : Request → Bool
  | .paymentIntents (.update _ _ _) => true
  | _ => false

section Unpatched

variable {deployment : Deployment}

/-- No request that patches intents is issued. -/
def unpatched : Label (service deployment) → Bool :=
  issues fun request => !request.patches

abbrev UnpatchedRun : Config (service deployment) → Config (service deployment) → Prop :=
  Run fun _ label => unpatched label = true

variable {config : Config (service deployment)} {state : World}

/-- Without patches every update was guarded, and made by a `mark*` helper. -/
theorem UnpatchedRun.update_permitted (run : UnpatchedRun (.initial state) config)
    {index : Nat} {request : Request} {id : String} {patch : PaymentIntentPatch}
    {resume : signature.Result (.write (.update .paymentIntent id patch)) → Promise Reply}
    (paused : config.threads[index]? =
      some ⟨request, .await (.write (.update .paymentIntent id patch)) resume⟩) :
    Guarded (config.past index) id ∧ Marks (config.past index) id patch := by
  have permitted : permitsTransition request (config.past index)
      (.write (.update .paymentIntent id patch)) := run.permitted transitions_fulfilled paused
  have unpatches := request_admitted (fun _ => rfl) run paused
  simp only [permitsTransition] at permitted
  split at permitted
  · cases unpatches
  · exact permitted.2
  · exact permitted
  · exact permitted.elim

/-- Without patches an update of a settled intent repeats the settlement that it has
been overtaken by. -/
theorem UnpatchedRun.repeats_of_punctual (run : UnpatchedRun (.initial state) config)
    {repeats : PaymentIntentPatch → Option String → Bool}
    {allows : Config (service deployment) → Label (service deployment) → Prop}
    {config' : Config (service deployment)} {thread : Nat} {choice : Choice} {request : Request}
    {id : String} {patch : PaymentIntentPatch} {row old : PaymentIntent}
    (resumes : Resumes allows config config' thread choice request
      ⟨.write (.update .paymentIntent id patch), .ok row⟩)
    (punctual : Punctual repeats config (.resume thread choice))
    (found : config.state.store.find? .paymentIntent id = some old)
    (settled : old.status = .succeeded) : repeats patch old.txHash = true := by
  obtain ⟨resume, paused, -⟩ := resumes.paused
  have guarded := (run.update_permitted paused).1
  exact punctual _ resumes.committed_eq _ (mem_settledSince run guarded found settled)

end Unpatched

/-! ## Finality -/

/-- Does the request patch or delete intents at the will of its caller? -/
def Request.edits (request : Request) : Bool :=
  match request with
  | .paymentIntents (.remove _ _) => true
  | request => request.patches

/-- The patch settles the intent once more, with the same hash. -/
def repeatsSettlement (patch : PaymentIntentPatch) (hash : Option String) : Bool :=
  patch.status = .value .succeeded && hash.isSome && patch.txHash.toOption = hash

section Finality

variable {deployment : Deployment}

/-- No request that edits intents is issued. -/
def unedited : Label (service deployment) → Bool :=
  issues fun request => !request.edits

/-- Runs without edits. -/
abbrev UneditedRun : Config (service deployment) → Config (service deployment) → Prop :=
  Run fun _ label => unedited label = true

/-- Runs without edits in which no write is overtaken by another settlement. -/
abbrev PunctualRun : Config (service deployment) → Config (service deployment) → Prop :=
  Run fun config label => unedited label = true ∧ Punctual repeatsSettlement config label

variable {config config' : Config (service deployment)} {state : World}

theorem unpatched_of_unedited {label : Label (service deployment)}
    (isUnedited : unedited label = true) : unpatched label = true := by
  refine issues_mono (fun request => ?_) isUnedited
  simp only [Request.edits]
  split
  · simp
  · exact id

/-- One punctual step leaves a settled intent as it is. -/
theorem settled_step (run : UneditedRun (.initial state) config)
    (step : Step (fun config label => unedited label = true ∧
      Punctual repeatsSettlement config label) config config')
    {id : String} {row : PaymentIntent}
    (found : config.state.store.find? .paymentIntent id = some row)
    (settled : row.status = .succeeded) :
    ∃ row', config'.state.store.find? .paymentIntent id = some row' ∧
      row'.status = .succeeded ∧ row'.txHash = row.txHash := by
  rcases step_cases step with ⟨-, drifts⟩ | ⟨thread, choice, request, performed, resumes⟩
  · exact ⟨row, by rw [drifts.store, found], settled, rfl⟩
  obtain ⟨resume, paused, -⟩ := resumes.paused
  refine resumes.performs.intent_kept
    (I := fun row' => row'.status = .succeeded ∧ row'.txHash = row.txHash) found
    ⟨settled, rfl⟩ ?_ ?_
  · rintro patch rfl
    have unpatchedRun : UnpatchedRun (.initial state) config :=
      run.mono fun _ _ => unpatched_of_unedited
    have repeated := unpatchedRun.repeats_of_punctual resumes resumes.allowed.2 found settled
    simp only [repeatsSettlement, Bool.and_eq_true, decide_eq_true_eq] at repeated
    obtain ⟨⟨sameStatus, isSome⟩, sameHash⟩ := repeated
    constructor
    · simp only [Model.apply, sameStatus, Field.setRequired, Field.toOption, Option.getD_some]
    · cases isHash : patch.txHash with
      | value hash => simpa [Model.apply, isHash, Field.set, Field.toOption] using sameHash
      | undefined => simp [isHash, Field.toOption, ← sameHash] at isSome
      | null => simp [isHash, Field.toOption, ← sameHash] at isSome
  · rintro rfl
    have permitted : permitsTransition request (config.past thread)
        (.write (.delete .paymentIntent id)) := run.permitted transitions_fulfilled paused
    have unedits := request_admitted (fun _ => rfl) run paused
    simp only [permitsTransition] at permitted
    split at permitted
    · cases unedits
    · exact permitted.elim

/-- Settlement is final: in a run without edits in which no write is overtaken, a
settled intent keeps its status and its hash. -/
theorem settlement_final (before : UneditedRun (Config.initial state) config)
    (later : PunctualRun config config') {id hash : String} {row : PaymentIntent}
    (found : config.state.store.find? .paymentIntent id = some row)
    (settled : row.status = .succeeded) (hashed : row.txHash = some hash) :
    ∃ row', config'.state.store.find? .paymentIntent id = some row' ∧
      row'.status = .succeeded ∧ row'.txHash = some hash := by
  refine later.keeps (I := fun latest : Config (service deployment) =>
    ∃ row', latest.state.store.find? .paymentIntent id = some row' ∧
      row'.status = .succeeded ∧ row'.txHash = some hash) ⟨row, found, settled, hashed⟩ ?_
  rintro middle latest passed ⟨row', found', settled', hashed'⟩ step
  have run := before.trans (passed.mono fun _ _ allowed => allowed.1)
  obtain ⟨row'', found'', settled'', sameHash⟩ := settled_step run step found' settled'
  exact ⟨row'', found'', settled'', sameHash.trans hashed'⟩

/-- Two validations of one payment race: the second repeats the settlement. -/
def racingValidations : Config (service Sample.deployment) :=
  after (fun _ label => unedited label)
    (Sample.create 0 "alice" "7" "c" "pi" ++
      [Sample.validate "alice" "pi" '1', Sample.validate "alice" "pi" '1'] ++
      Sample.serve 2 3 ++ Sample.serve 3 3 ++ Sample.serve 2 2)
    Sample.start

theorem settlement_final_of_racingValidations :
    ∃ row', (after (fun config label => unedited label ∧ Punctual repeatsSettlement config label)
        (Sample.serve 3 2) racingValidations).state.store.find? .paymentIntent "pi" = some row' ∧
      row'.status = .succeeded ∧ row'.txHash = some (Sample.hash '1') := by
  have shown : (racingValidations.state.store.find? .paymentIntent "pi").map
      (fun row => (row.status, row.txHash)) = some (.succeeded, some (Sample.hash '1')) := by
    decide +kernel
  obtain ⟨row, found, isShown⟩ := Option.map_eq_some_iff.mp shown
  obtain ⟨settled, hashed⟩ := Prod.mk.inj isShown
  exact settlement_final (run_after (fun _ _ checked => checked) _ _)
    (run_after (fun _ _ checked => of_decide_eq_true checked) _ _) found settled hashed

/-- A validation of a failed transaction overtaken by one of a successful payment. -/
def overtakenValidation : Config (service Sample.deployment) :=
  after (fun _ label => unedited label)
    (Sample.create 0 "alice" "7" "c" "pi" ++
      [Sample.validate "alice" "pi" '1', Sample.validate "alice" "pi" '2'] ++
      Sample.serve 2 3 ++ Sample.serve 3 2 ++ Sample.serve 2 2)
    Sample.start

/-- In general settlement is not final: the overtaken validation turns a settled intent
into a failed one and takes its hash. -/
theorem not_settlement_final :
    ¬ ∀ (deployment : Deployment) (state : World) (config config' : Config (service deployment)),
      UneditedRun (.initial state) config → UneditedRun config config' →
      ∀ (id hash : String) (row : PaymentIntent),
        config.state.store.find? .paymentIntent id = some row → row.status = .succeeded →
        row.txHash = some hash →
        ∃ row', config'.state.store.find? .paymentIntent id = some row' ∧
          row'.status = .succeeded ∧ row'.txHash = some hash := by
  intro final
  have shown : (overtakenValidation.state.store.find? .paymentIntent "pi").map
      (fun row => (row.status, row.txHash)) = some (.succeeded, some (Sample.hash '1')) := by
    decide +kernel
  obtain ⟨row, found, isShown⟩ := Option.map_eq_some_iff.mp shown
  obtain ⟨settled, hashed⟩ := Prod.mk.inj isShown
  obtain ⟨row', found', settled', -⟩ := final Sample.deployment Sample.world
    overtakenValidation
    (after (fun _ label => unedited label) (Sample.serve 3 1) overtakenValidation)
    (run_after (fun _ _ checked => checked) _ _) (run_after (fun _ _ checked => checked) _ _)
    "pi" (Sample.hash '1') row found settled hashed
  have failed : ((after (fun _ label => unedited label) (Sample.serve 3 1)
      overtakenValidation).state.store.find? .paymentIntent "pi").map PaymentIntent.status =
      some .failed := by
    decide +kernel
  rw [found', Option.map_some, settled'] at failed
  cases failed

end Finality

/-! ## One announcement -/

/-- Does the call announce that the intent has been settled? -/
abbrev announcesSettlement (id : String) : Performed signature → Bool :=
  isAnnouncement .paymentIntentSucceeded id

/-- Is the call an update that has to be announced as a settlement of the intent? -/
abbrev updatesToSettled (id : String) : Performed signature → Bool :=
  needsAnnouncement .paymentIntentSucceeded id

/-- Such an update leaves a settled intent. -/
theorem eq_update_of_updatesToSettled {before after : World} {performed : Performed signature}
    {id : String} (performs : Performs before after performed)
    (updates : updatesToSettled id performed = true) :
    ∃ patch old, performed =
        ⟨.write (.update .paymentIntent id patch), .ok (Model.apply .paymentIntent patch old)⟩ ∧
      Store.Updated before.store after.store .paymentIntent id patch old ∧
      (Model.apply .paymentIntent patch old).status = .succeeded := by
  obtain ⟨row, announced, rfl⟩ := needsAnnouncement_iff.mp updates
  obtain ⟨call, answer⟩ := performed
  cases answer with
  | error err => cases announced
  | ok value =>
      simp only [announcement, Call.announcement] at announced
      split at announced
      · simp at announced
      · rename_i key patch written
        obtain ⟨isType, rfl⟩ := Prod.mk.inj (Option.some.inj announced)
        obtain ⟨old, isRow, change⟩ := Performs.of_update performs
        have isKey : (Model.apply .paymentIntent patch old).id = key :=
          (Model.key_apply .paymentIntent patch old).trans (Table.key_of_find? change.found)
        have isSettled : patch.status = .value .succeeded := by
          unfold patchEvent at isType
          split at isType
          · rename_i status isStatus
            cases status <;> first | exact isStatus | cases isType
          · cases isType
        subst isRow
        rw [isKey]
        exact ⟨patch, old, rfl, change, by simp [isSettled, Model.apply, Field.setRequired,
          Field.toOption]⟩
      · simp at announced
      · cases announced

section Announcement

variable {deployment : Deployment}

/-- Runs without patches in which no update is overtaken by a settlement. -/
abbrev OrderlyRun : Config (service deployment) → Config (service deployment) → Prop :=
  Run fun config label => unpatched label = true ∧ Punctual (fun _ _ => false) config label

variable {config config' : Config (service deployment)} {state : World}

/-- The intent has been settled at most once, and if so it still is, unless it is gone. -/
structure SettledOnce (config : Config (service deployment)) (id : String) : Prop where
  once : config.trace.countP (fun entry => updatesToSettled id entry.performed) ≤ 1
  issued : 0 < config.trace.countP (fun entry => updatesToSettled id entry.performed) →
    id ∈ config.state.store.issued
  settled : 0 < config.trace.countP (fun entry => updatesToSettled id entry.performed) →
    ∀ row, config.state.store.find? .paymentIntent id = some row → row.status = .succeeded

/-- No update of an orderly run meets a settled intent. -/
theorem OrderlyRun.unsettled_of_update (run : OrderlyRun (.initial state) config)
    {thread : Nat} {choice : Choice} {request : Request} {id : String}
    {patch : PaymentIntentPatch} {row old : PaymentIntent}
    (resumes : Resumes (fun config label => unpatched label = true ∧
        Punctual (fun _ _ => false) config label) config config' thread choice request
      ⟨.write (.update .paymentIntent id patch), .ok row⟩)
    (found : config.state.store.find? .paymentIntent id = some old) :
    old.status ≠ .succeeded := by
  intro settled
  have unpatchedRun : UnpatchedRun (.initial state) config := run.mono fun _ _ => And.left
  have repeated := unpatchedRun.repeats_of_punctual resumes resumes.allowed.2 found settled
  cases repeated

theorem SettledOnce.step (run : OrderlyRun (.initial state) config) {id : String}
    (before : SettledOnce config id)
    (step : Step (fun config label => unpatched label = true ∧
      Punctual (fun _ _ => false) config label) config config') : SettledOnce config' id := by
  have issuedLater := step_issued step
  rcases step_cases step with ⟨sameTrace, drifts⟩ | ⟨thread, choice, request, performed, resumes⟩
  · refine ⟨?_, ?_, ?_⟩
    · rw [sameTrace]
      exact before.once
    · rw [sameTrace]
      exact fun settled => issuedLater id (before.issued settled)
    · rw [sameTrace, drifts.store]
      exact before.settled
  · have count : config'.trace.countP (fun entry => updatesToSettled id entry.performed) =
        config.trace.countP (fun entry => updatesToSettled id entry.performed) +
          if updatesToSettled id performed then 1 else 0 := by
      rw [resumes.trace, List.countP_cons]
    by_cases updates : updatesToSettled id performed = true
    · -- the first settlement: the intent was not settled before
      obtain ⟨patch, old, rfl, change, settled⟩ :=
        eq_update_of_updatesToSettled resumes.performs updates
      have unsettled := run.unsettled_of_update resumes change.found
      have none : config.trace.countP (fun entry => updatesToSettled id entry.performed) = 0 := by
        by_contra some
        exact unsettled (before.settled (Nat.pos_of_ne_zero some) old change.found)
      rw [if_pos updates, none] at count
      refine ⟨by omega, fun _ => issuedLater id (Store.issued_of_find? change.found), ?_⟩
      intro _ row found
      rw [change.lookup, if_pos rfl] at found
      obtain rfl := Option.some.inj found
      exact settled
    · rw [if_neg updates, Nat.add_zero] at count
      refine ⟨by rw [count]; exact before.once, ?_, ?_⟩
      · rw [count]
        exact fun settled => issuedLater id (before.issued settled)
      · rw [count]
        intro settled row found
        have still := before.settled settled
        cases resumes.performs.rows .paymentIntent with
        | kept same => exact still row ((same id).symm.trans found)
        | created new drawn createdAt _ fresh change =>
            have differ : drawn ≠ id := by
              rintro rfl
              exact fresh (before.issued settled)
            rw [change.lookup, if_neg differ] at found
            exact still row found
        | updated key patch old isUpdate change =>
            by_cases isId : key = id
            · subst isId
              subst isUpdate
              exact absurd (still old change.found) (run.unsettled_of_update resumes change.found)
            · rw [change.lookup, if_neg isId] at found
              exact still row found
        | deleted key old _ change =>
            rw [change.lookup] at found
            split at found
            · cases found
            · exact still row found
        | cascaded key old isDelivery => cases isDelivery

theorem OrderlyRun.settledOnce (run : OrderlyRun (.initial state) config) (id : String) :
    SettledOnce config id := by
  refine run.keeps (I := fun config : Config (service deployment) => SettledOnce config id) ?_ ?_
  · constructor <;> simp [Config.initial]
  · intro config config' before once step
    exact once.step before step

/-- A settlement is announced at most once: where no update is overtaken by a settlement,
an intent gets at most one `PAYMENT_INTENT_SUCCEEDED` event. -/
theorem settlement_announced_once (run : OrderlyRun (.initial state) config) (id : String) :
    config.trace.countP (fun entry => announcesSettlement id entry.performed) ≤ 1 := by
  exact (countP_isAnnouncement_le run .paymentIntentSucceeded id).trans (run.settledOnce id).once

/-- One validation of a payment after the other. -/
def repeatedValidation : Config (service Sample.deployment) :=
  after (fun config label => unpatched label ∧ Punctual (fun _ _ => false) config label)
    (Sample.create 0 "alice" "7" "c" "pi" ++
      Sample.validate "alice" "pi" '1' :: Sample.serve 2 7 ++
      Sample.validate "alice" "pi" '1' :: Sample.serve 5 1)
    Sample.start

theorem settlement_announced_once_of_repeatedValidation :
    repeatedValidation.trace.countP
      (fun entry => announcesSettlement "pi" entry.performed) ≤ 1 :=
  settlement_announced_once (run_after (fun _ _ checked => of_decide_eq_true checked) _ _) "pi"

/-- Two validations of one payment that both read the intent before either settles it. -/
def doubleValidation : Config (service Sample.deployment) :=
  after (fun _ label => unpatched label)
    (Sample.create 0 "alice" "7" "c" "pi" ++
      [Sample.validate "alice" "pi" '1', Sample.validate "alice" "pi" '1'] ++
      Sample.serve 2 3 ++ Sample.serve 3 3 ++ Sample.serve 2 3 ++ Sample.serve 3 3)
    Sample.start

/-- In general a settlement may be announced twice. -/
theorem not_settlement_announced_once :
    ¬ ∀ (deployment : Deployment) (state : World) (config : Config (service deployment)),
      UnpatchedRun (.initial state) config → ∀ id : String,
        config.trace.countP (fun entry => announcesSettlement id entry.performed) ≤ 1 := by
  intro once
  have bound := once Sample.deployment Sample.world doubleValidation
    (run_after (fun _ _ checked => checked) _ _) "pi"
  have twice : doubleValidation.trace.countP
      (fun entry => announcesSettlement "pi" entry.performed) = 2 := by
    decide +kernel
  omega

end Announcement

end CosmosPay
