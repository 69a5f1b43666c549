import CosmosPay.Contracts.Handovers
import CosmosPay.Idempotence
import CosmosPay.Sequence
import CosmosPay.Settlement

/-!
# The source of a settled intent

`markSucceeded` records the payer only where it has read no source.  When one operation follows
the other, the source that it reads is the one that the intent was created with, so afterwards
the source is the payer, or what the create request has given.
-/

namespace CosmosPay

open Awaiting Program Tables PaymentIntents

/-- A request to create or to validate an intent, or a tick of the observer. -/
def Request.settles : Request → Bool
  | .paymentIntents (.createTx _ _) => true
  | .paymentIntents (.createPay _ _) => true
  | .paymentIntents (.validate _ _ _) => true
  | .tick _ => true
  | _ => false

section Runs

variable {deployment : Deployment}

/-- Sequential runs of creates, validates and ticks. -/
abbrev SettlingRun : Config (service deployment) → Config (service deployment) → Prop :=
  Run fun config label => sequential config label = true ∧ issues Request.settles label = true

variable {config config' : Config (service deployment)} {state : World}

theorem SettlingRun.unpatchedRun (run : SettlingRun (.initial state) config) :
    UnpatchedRun (.initial state) config := by
  refine run.mono fun _ _ allowed => issues_mono (fun request settles => ?_) allowed.2
  unfold Request.settles at settles
  split at settles <;> first | rfl | cases settles

/-- The threads serve such requests and detached tasks. -/
theorem SettlingRun.admitted (run : SettlingRun (.initial state) config) {index : Nat}
    {thread : Thread (service deployment)} (lookup : config.threads[index]? = some thread) :
    Request.settles thread.request = true ∨ Request.isForeground thread.request = false := by
  refine @Run.requests _ (service deployment) _ _ _
    (fun request => Request.settles request = true ∨ Request.isForeground request = false) run
    (fun _ _ allowed => .inl allowed.2) (fun performed => ?_) _ _ lookup
  intro request member
  obtain ⟨task, rfl⟩ := World.perform_spawned performed request member
  exact .inr rfl

/-! ## Stored intents -/

/-- An update finalizes an intent that is not settled. -/
theorem SettlingRun.marks_of_update (run : SettlingRun (.initial state) config) {index : Nat}
    {request : Request} {id : String} {patch : PaymentIntentPatch}
    {resume : signature.Result (.write (.update .paymentIntent id patch)) → Promise Reply}
    (paused : config.threads[index]? =
      some ⟨request, .await (.write (.update .paymentIntent id patch)) resume⟩)
    {row : PaymentIntent} (found : config.state.store.find? .paymentIntent id = some row) :
    row.status ≠ .succeeded ∧ Marks (config.past index) id patch := by
  obtain ⟨guarded, marks⟩ := (SettlingRun.unpatchedRun run).update_permitted paused
  have permitted : permitsTransition request (config.past index)
      (.write (.update .paymentIntent id patch)) := run.permitted transitions_fulfilled paused
  have foreground : Request.isForeground request = true := by
    simp only [permitsTransition] at permitted
    split at permitted <;> first | rfl | exact permitted.elim
  have sequentialRun : SequentialRun (.initial state) config := run.mono fun _ _ => And.left
  have inFlight : InFlight config index
      ⟨request, .await (.write (.update .paymentIntent id patch)) resume⟩ :=
    ⟨paused, foreground, Program.not_finished_await _ _⟩
  exact ⟨sequentialRun.oneAtATime.unsettled_of_guarded inFlight guarded found, marks⟩

/-- A stored intent stays as it is once it is settled, and keeps its source until then. -/
theorem SettlingRun.row_step (run : SettlingRun (.initial state) config)
    (step : Step (fun config label => sequential config label = true ∧
      issues Request.settles label = true) config config') {id : String} {row : PaymentIntent}
    (found : config.state.store.find? .paymentIntent id = some row) :
    ∃ row', config'.state.store.find? .paymentIntent id = some row' ∧
      (row' = row ∨ row.status ≠ .succeeded ∧
        (row'.status = .succeeded ∨ row'.source = row.source)) := by
  rcases step_cases step with ⟨-, drifts⟩ | ⟨thread, choice, request, performed, resumes⟩
  · exact ⟨row, by rw [drifts.store, found], .inl rfl⟩
  obtain ⟨resume, paused, -⟩ := resumes.paused
  refine resumes.performs.intent_kept
    (I := fun row' => row' = row ∨ row.status ≠ .succeeded ∧
      (row'.status = .succeeded ∨ row'.source = row.source)) found (.inl rfl) ?_ ?_
  · rintro patch rfl
    obtain ⟨unsettled, marks⟩ := SettlingRun.marks_of_update run paused found
    refine .inr ⟨unsettled, ?_⟩
    cases marks with
    | succeeded => exact .inl rfl
    | failed => exact .inr rfl
    | expired => exact .inr rfl
  · rintro rfl
    have permitted : permitsTransition request (config.past thread)
        (.write (.delete .paymentIntent id)) := run.permitted transitions_fulfilled paused
    have admitted := SettlingRun.admitted run paused
    simp only [permitsTransition] at permitted
    split at permitted
    · simp [Request.settles, Request.isForeground] at admitted
    · exact permitted

/-- A settled intent stays as it is. -/
theorem SettlingRun.settled_kept (before : SettlingRun (.initial state) config)
    (later : SettlingRun config config') {id : String} {row : PaymentIntent}
    (found : config.state.store.find? .paymentIntent id = some row)
    (settled : row.status = .succeeded) :
    config'.state.store.find? .paymentIntent id = some row := by
  refine later.keeps (I := fun latest : Config (service deployment) =>
    latest.state.store.find? .paymentIntent id = some row) found ?_
  intro middle latest passed found' step
  obtain ⟨row', found'', rfl | ⟨unsettled, -⟩⟩ :=
    SettlingRun.row_step (before.trans passed) step found'
  · exact found''
  · exact absurd settled unsettled

/-- The intent is stored, and as long as it is not settled it has this source. -/
def KeepsSource (config : Config (service deployment)) (id : String) (source : Option String) :
    Prop :=
  ∃ row, config.state.store.find? .paymentIntent id = some row ∧
    (row.status ≠ .succeeded → row.source = source)

theorem SettlingRun.source_kept (before : SettlingRun (.initial state) config)
    (later : SettlingRun config config') {id : String} {source : Option String}
    (kept : KeepsSource config id source) : KeepsSource config' id source := by
  refine later.keeps (I := fun latest : Config (service deployment) =>
    KeepsSource latest id source) kept ?_
  rintro middle latest passed ⟨row, found, isSource⟩ step
  obtain ⟨row', found', rfl | ⟨unsettled, settled | same⟩⟩ :=
    SettlingRun.row_step (before.trans passed) step found
  · exact ⟨row', found', isSource⟩
  · exact ⟨row', found', fun unsettled' => absurd settled unsettled'⟩
  · exact ⟨row', found', fun _ => same.trans (isSource unsettled)⟩

/-- An intent that a thread has read is still stored. -/
theorem SettlingRun.exists_row_of_read (run : SettlingRun (.initial state) config) {thread : Nat}
    {intent : PaymentIntent} (read : HasRead (config.past thread) intent) :
    ∃ row, config.state.store.find? .paymentIntent intent.id = some row := by
  obtain ⟨performed, member, returned⟩ := read
  obtain ⟨before, after, choice, request, reached, resumes, later, -⟩ :=
    exists_resumes_of_mem run (mem_pastOf.mp member)
  have stored := resumes.performs.find?_of_returned returned
  have kept : KeepsSource after intent.id intent.source := ⟨intent, stored, fun _ => rfl⟩
  obtain ⟨row, found, -⟩ := SettlingRun.source_kept (reached.tail resumes.step) later kept
  exact ⟨row, found⟩

/-! ## The source of a settled intent -/

/-- The intent and the payer of the customer task that a call has started. -/
def handedOver (performed : Performed signature) : Option (PaymentIntent × Option String) :=
  match performed with
  | ⟨.start (.upsertCustomerFromPayment intent payer), .ok _⟩ => some (intent, payer)
  | _ => none

/-- `markSucceeded` has settled the intent with this payer, and has started the task that looks
after the customer. -/
def SettledWith (config : Config (service deployment)) (intent : PaymentIntent)
    (payer : String) : Prop :=
  ∃ entry ∈ config.trace, handedOver entry.performed = some (intent, some payer)

instance (config : Config (service deployment)) (intent : PaymentIntent) (payer : String) :
    Decidable (SettledWith config intent payer) :=
  inferInstanceAs (Decidable (∃ entry ∈ config.trace, _))

omit config' in
theorem SettledWith.exists_start {intent : PaymentIntent} {payer : String}
    (settled : SettledWith config intent payer) : ∃ thread answer,
      ⟨thread, .start (.upsertCustomerFromPayment intent (some payer)), .ok answer⟩ ∈
        config.trace := by
  obtain ⟨⟨thread, performed⟩, member, isHandedOver⟩ := settled
  unfold handedOver at isHandedOver
  split at isHandedOver
  · rename_i answer isStart
    cases isStart
    cases isHandedOver
    exact ⟨thread, answer, member⟩
  · cases isHandedOver

/-- A create request has inserted the intent as this row. -/
def CreatedAs (config : Config (service deployment)) (original : PaymentIntent) : Prop :=
  ∃ thread new, ⟨thread, .write (.create .paymentIntent new), .ok original⟩ ∈ config.trace

/-- The intent was created without a source, or with the account as its source. -/
def CreatedFor (config : Config (service deployment)) (id account : String) : Prop :=
  ∃ original, CreatedAs config original ∧ original.id = id ∧
    truthy original.source ∈ [none, some account]

theorem CreatedAs.mono {original : PaymentIntent} (created : CreatedAs config original)
    (grows : config.trace ⊆ config'.trace) : CreatedAs config' original := by
  obtain ⟨thread, new, member⟩ := created
  exact ⟨thread, new, grows member⟩

/-- An intent is created once. -/
theorem CreatedAs.unique {allows : Config (service deployment) → Label (service deployment) → Prop}
    (run : Run allows (.initial state) config) {first second : PaymentIntent}
    (one : CreatedAs config first) (two : CreatedAs config second) (same : first.id = second.id) :
    first = second := by
  obtain ⟨thread, new, member⟩ := one
  obtain ⟨other, otherNew, otherMember⟩ := two
  have once := (insertedOnce run second.id).once
  rw [List.countP_eq_length_filter] at once
  have listed : ∀ {thread : Nat} {new : NewPaymentIntent} {row : PaymentIntent},
      ⟨thread, .write (.create .paymentIntent new), .ok row⟩ ∈ config.trace →
      row.id = second.id → ⟨thread, .write (.create .paymentIntent new), .ok row⟩ ∈
        config.trace.filter fun entry =>
          needsAnnouncement .paymentIntentCreated second.id entry.performed :=
    fun member isId => List.mem_filter.mpr
      ⟨member, needsAnnouncement_iff.mpr ⟨_, rfl, isId⟩⟩
  have isFirst := listed member same
  have isSecond := listed otherMember rfl
  obtain ⟨entry, only⟩ := List.length_eq_one_iff.mp
    (Nat.le_antisymm once (List.length_pos_of_mem isFirst))
  rw [only, List.mem_singleton] at isFirst isSecond
  have sameEntry := isFirst.trans isSecond.symm
  cases sameEntry
  rfl

theorem SettlingRun.keepsSource_of_created (run : SettlingRun (.initial state) config)
    {original : PaymentIntent} (created : CreatedAs config original) :
    KeepsSource config original.id original.source := by
  obtain ⟨thread, new, member⟩ := created
  obtain ⟨before, after, choice, request, reached, resumes, later, -⟩ :=
    exists_resumes_of_mem run member
  obtain ⟨id, -, rfl, change⟩ := resumes.performs.of_create
  refine SettlingRun.source_kept (reached.tail resumes.step) later ⟨_, ?_, fun _ => rfl⟩
  rw [change.lookup]
  exact if_pos rfl

omit config config' in
theorem Marks.exists_read {past : History signature} {id : String} {patch : PaymentIntentPatch}
    (marks : Marks past id patch) (settles : patch.status = .value .succeeded) :
    ∃ intent, intent.id = id ∧ HasRead past intent := by
  cases marks with
  | succeeded intent hash payer current isIntent read => exact ⟨intent, isIntent, read⟩
  | failed => cases settles
  | expired => cases settles

/-- The source that a settling thread has just read is the one that the intent was created with,
and the intent still has it. -/
theorem SettlingRun.created_of_settling (start : state.store = .empty)
    (run : SettlingRun (.initial state) config) {thread : Nat} {id : String}
    {current : Option (Option String)} {older : History signature}
    (past : config.past thread = ⟨.query (.intentSource id), .ok current⟩ :: older)
    {patch : PaymentIntentPatch} (marks : Marks (config.past thread) id patch)
    (settles : patch.status = .value .succeeded) {old : PaymentIntent}
    (found : config.state.store.find? .paymentIntent id = some old)
    (unsettled : old.status ≠ .succeeded) :
    ∃ original, CreatedAs config original ∧ original.id = id ∧ old.source = original.source ∧
      current = some original.source := by
  -- the intent had been read, and so was stored, before its source was
  obtain ⟨intent, rfl, performed, member, returned⟩ := marks.exists_read settles
  have read : HasRead older intent := by
    rw [past] at member
    rcases List.mem_cons.mp member with rfl | earlier
    · cases returned
    · exact ⟨performed, earlier, returned⟩
  have asked : pastOf thread config.trace =
      [] ++ ⟨.query (.intentSource intent.id), .ok current⟩ :: older := past
  obtain ⟨newer, rest, split, -, isOlder⟩ := exists_split_of_pastOf asked
  obtain ⟨before, after, choice, request, reached, rfl, resumes, later, -⟩ :=
    exists_resumes_of_split run split
  obtain ⟨row, stored⟩ := SettlingRun.exists_row_of_read reached (isOlder ▸ read)
  obtain ⟨maker, new, original, inserted, terms⟩ :=
    inserted_of_stored reached (by simp [start, Store.empty]) stored
  have isId : original.id = intent.id :=
    (congrArg PaymentIntent.id terms).trans (Table.key_of_find? stored)
  have created : CreatedAs before original := ⟨maker, new, inserted⟩
  have laterStep : SettlingRun before config := .head resumes.step later
  -- it was not settled either then, and had the source that it was created with
  have unsettledRow : row.status ≠ .succeeded := by
    intro settled
    have same := SettlingRun.settled_kept reached laterStep stored settled
    obtain rfl := Option.some.inj (same.symm.trans found)
    exact unsettled settled
  have sourceOf : ∀ {latest : Config (service deployment)} {shown : PaymentIntent},
      KeepsSource latest original.id original.source →
      latest.state.store.find? .paymentIntent intent.id = some shown →
      shown.status ≠ .succeeded → shown.source = original.source := by
    rintro latest shown ⟨kept, foundKept, isSource⟩ foundShown
    rw [isId] at foundKept
    obtain rfl := Option.some.inj (foundKept.symm.trans foundShown)
    exact isSource
  have keeps := SettlingRun.keepsSource_of_created reached created
  obtain ⟨-, order, answered⟩ := resumes.performs.of_query
  have isCurrent : (before.state.store.find? .paymentIntent intent.id).map PaymentIntent.source =
      current := Option.some.inj answered
  refine ⟨original, created.mono (trace_subset laterStep), isId, ?_, ?_⟩
  · exact sourceOf (SettlingRun.source_kept reached laterStep keeps) found unsettled
  · rw [← isCurrent, stored, Option.map_some, sourceOf keeps stored unsettledRow]

omit config config' in
/-- The payer becomes the source where there is none. -/
theorem source_succeeded_iff {hash payer : String} {source : Option String}
    (given : payer ≠ "") :
    (succeededPatch hash (some payer) (some source)).source.set source = some payer ↔
      truthy source ∈ [none, some payer] := by
  have isPayer : truthy (some payer) = some payer := truthy_eq_some.mpr ⟨rfl, given⟩
  simp only [succeededPatch, isPayer, Option.join_some]
  cases isSource : truthy source with
  | none => simp [Field.set]
  | some recorded =>
      obtain ⟨rfl, -⟩ := truthy_eq_some.mp isSource
      simp [Field.set]

/-- The update of a settlement: the thread has just read the source. -/
theorem SettlingRun.exists_update_of_settled (run : SettlingRun (.initial state) config)
    {intent : PaymentIntent} {payer : String} (settled : SettledWith config intent payer) :
    ∃ before after thread choice request id hash current older,
      SettlingRun (.initial state) before ∧
      Resumes (fun config label => sequential config label = true ∧
        issues Request.settles label = true) before after thread choice request
        ⟨.write (.update .paymentIntent id (succeededPatch hash (some payer) current)),
          .ok intent⟩ ∧
      SettlingRun after config ∧
      before.past thread = ⟨.query (.intentSource id), .ok current⟩ :: older := by
  obtain ⟨thread, answer, member⟩ := settled.exists_start
  obtain ⟨starting, started, choice, request, reached, starts, later, -⟩ :=
    exists_resumes_of_mem run member
  obtain ⟨resume, paused, -⟩ := starts.paused
  have handsOver : Settling intent (some payer) (starting.past thread) :=
    reached.permitted handovers_fulfilled paused
  obtain ⟨username, id, hash, current, older, past⟩ := handsOver
  have wrote : pastOf thread starting.trace =
      [⟨.emit ⟨username, .paymentIntentSucceeded, intent⟩, .ok ()⟩] ++
        ⟨.write (.update .paymentIntent id (succeededPatch hash (some payer) current)),
          .ok intent⟩ :: ⟨.query (.intentSource id), .ok current⟩ :: older := past
  obtain ⟨newer, rest, split, -, isPast⟩ := exists_split_of_pastOf wrote
  obtain ⟨before, after, choice, request, reachedBefore, rfl, resumes, onward, -⟩ :=
    exists_resumes_of_split reached split
  exact ⟨before, after, thread, choice, request, id, hash, current, older, reachedBefore,
    resumes, onward.trans (.head starts.step later), isPast⟩

/-- A settled intent stays stored, and its source is the payer if and only if it was created
without a source or with the payer as its source. -/
theorem SettlingRun.source_of_settled (start : state.store = .empty)
    (run : SettlingRun (.initial state) config) {intent : PaymentIntent} {payer : String}
    (settled : SettledWith config intent payer) :
    config.state.store.find? .paymentIntent intent.id = some intent ∧
      intent.status = .succeeded ∧
      (payer ≠ "" → (intent.source = some payer ↔ CreatedFor config intent.id payer)) := by
  obtain ⟨before, after, thread, choice, request, id, hash, current, older, reached, resumes,
    later, past⟩ := SettlingRun.exists_update_of_settled run settled
  obtain ⟨resume, paused, -⟩ := resumes.paused
  obtain ⟨old, isUpdated, change⟩ := resumes.performs.of_update
  obtain ⟨unsettled, marks⟩ := SettlingRun.marks_of_update reached paused change.found
  obtain ⟨original, created, isId, oldSource, rfl⟩ :=
    SettlingRun.created_of_settling start reached past marks rfl change.found unsettled
  have isIntent : intent.id = id := by
    have kept := Model.key_apply .paymentIntent
      (succeededPatch hash (some payer) (some original.source)) old
    rw [isUpdated]
    exact kept.trans (Table.key_of_find? change.found)
  have isSettled : intent.status = .succeeded := by
    rw [isUpdated]
    rfl
  have written : after.state.store.find? .paymentIntent intent.id = some intent := by
    rw [change.lookup, if_pos isIntent.symm, isUpdated]
  refine ⟨SettlingRun.settled_kept (reached.tail resumes.step) later written isSettled,
    isSettled, fun given => ?_⟩
  have isSource : intent.source =
      (succeededPatch hash (some payer) (some original.source)).source.set original.source := by
    rw [isUpdated, ← oldSource]
    rfl
  have createdLater : CreatedAs config original :=
    created.mono (trace_subset (.head resumes.step later))
  rw [isSource, source_succeeded_iff given]
  constructor
  · intro free
    exact ⟨original, createdLater, isId.trans isIntent.symm, free⟩
  · rintro ⟨other, otherCreated, otherId, free⟩
    obtain rfl := createdLater.unique run otherCreated
      ((isId.trans isIntent.symm).trans otherId.symm)
    exact free

end Runs

end CosmosPay
