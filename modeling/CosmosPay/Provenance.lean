import CosmosPay.Payment

/-!
# Where intents come from

Starting from an empty database, every stored intent was inserted by a create request of
its consumer, with the network and the kind of that request.  A later create request with
the same memo gets the stored intent, whatever its own network and kind are.
-/

namespace CosmosPay

open Awaiting Tables PaymentIntents

section Provenance

variable {deployment : Deployment}
variable {allows : Config (service deployment) → Label (service deployment) → Prop}
variable {config config' : Config (service deployment)} {state : World}

/-- The consumer row that a thread has upserted is the caller's. -/
theorem belongsTo_of_upserted (run : Run allows (Config.initial state) config) {thread : Nat}
    {consumer : GatewayConsumer} {owner : Consumer}
    (upserted : Upserted (config.past thread) consumer owner) :
    config.state.store.belongsTo owner.id consumer.username = true := by
  obtain ⟨before, after, choice, request, -, resumes, later, -⟩ :=
    exists_resumes_of_mem run (mem_pastOf.mp upserted)
  refine (belongsTo_stable owner.id consumer.username).run later ?_
  exact Store.belongsTo_iff.mpr ⟨owner,
    Store.consumerNamed_eq_some_iff.mp resumes.performs.of_upsert.named⟩

/-! ## Insertions -/

/-- The thread inserted the intent. -/
def Inserted (config : Config (service deployment)) (maker : Nat) (intent : PaymentIntent) :
    Prop :=
  ∃ new original, ⟨maker, .write (.create .paymentIntent new), .ok original⟩ ∈ config.trace ∧
    original.terms = intent.terms

theorem Inserted.mono {maker : Nat} {intent row : PaymentIntent}
    (inserted : Inserted config maker intent) (grows : config.trace ⊆ config'.trace)
    (same : intent.terms = row.terms) : Inserted config' maker row := by
  obtain ⟨new, original, member, isTerms⟩ := inserted
  exact ⟨new, original, grows member, isTerms.trans same⟩

/-- An intent that was not there at the start has been inserted by some thread. -/
theorem inserted_of_stored (run : Run allows (Config.initial state) config) {id : String}
    {row : PaymentIntent} (unknown : id ∉ state.store.issued)
    (found : config.state.store.find? .paymentIntent id = some row) :
    ∃ maker, Inserted config maker row := by
  revert row
  refine run.keeps (I := fun config : Config (service deployment) =>
    ∀ {row : PaymentIntent}, config.state.store.find? .paymentIntent id = some row →
      ∃ maker, Inserted config maker row) ?_ ?_
  · intro row found
    exact absurd (Store.issued_of_find? found) unknown
  · intro config config' before ih step row found
    have grows := step_trace step
    rcases step_cases step with ⟨-, drifts⟩ | ⟨thread, choice, request, performed, resumes⟩
    · rw [drifts.store] at found
      obtain ⟨maker, inserted⟩ := ih found
      exact ⟨maker, inserted.mono grows rfl⟩
    · by_cases known : id ∈ config.state.store.issued
      · obtain ⟨old, oldFound, sameTerms⟩ :=
          resumes.performs.column_eq PaymentIntent.terms terms_apply known found
        obtain ⟨maker, inserted⟩ := ih oldFound
        exact ⟨maker, inserted.mono grows sameTerms.symm⟩
      · obtain ⟨new, createdAt, rfl, -, -⟩ := resumes.performs.created_of_unknown known found
        exact ⟨thread, new, row, by rw [resumes.trace]; exact List.mem_cons_self, rfl⟩

/-- The create request of the thread made the intent. -/
structure MadeBy (config : Config (service deployment)) (maker : Nat) (creation : Creation)
    (intent : PaymentIntent) : Prop where
  request : ∃ request code, config.threads[maker]? = some ⟨request, code⟩ ∧
    request.creation? = some creation
  inserted : Inserted config maker intent
  owner : config.state.store.belongsTo intent.consumerId creation.consumer.username = true
  memo : ResolvesMemo (config.past maker) creation.memo intent.memo
  kind : intent.kind = creation.kind
  network : intent.network = resolveNetwork deployment creation.consumer

/-- Only create requests insert intents. -/
theorem Inserted.madeBy (run : Run allows (Config.initial state) config) {maker : Nat}
    {intent : PaymentIntent} (inserted : Inserted config maker intent) :
    ∃ creation, MadeBy config maker creation intent := by
  obtain ⟨new, original, member, sameTerms⟩ := inserted
  obtain ⟨before, after, choice, request, reached, resumes, later, code, lookup⟩ :=
    exists_resumes_of_mem run member
  obtain ⟨resume, paused, -⟩ := resumes.paused
  have transits : permitsTransition request (before.past maker)
      (.write (.create .paymentIntent new)) := reached.permitted transitions_fulfilled paused
  have creates : permitsCreation deployment request (before.past maker)
      (.write (.create .paymentIntent new)) := reached.permitted creations_fulfilled paused
  obtain ⟨creation, isCreation⟩ : ∃ creation, request.creation? = some creation := by
    simp only [permitsTransition] at transits
    split at transits
    · exact ⟨_, rfl⟩
    · exact ⟨_, rfl⟩
    · exact transits.elim
  obtain ⟨⟨owner, prepared, isOwner⟩, kind, network, -⟩ := creates creation isCreation
  have grows : before.past maker ⊆ config.past maker :=
    List.Subset.trans resumes.past_subset (past_subset later maker)
  obtain ⟨drawn, -, rfl, -⟩ := resumes.performs.of_create
  have owned := belongsTo_of_upserted run (prepared.mono grows).upserted
  rw [← isOwner] at owned
  have memos : new.memo = intent.memo := congrArg PaymentIntent.memo sameTerms
  have owners : new.consumerId = intent.consumerId := congrArg PaymentIntent.consumerId sameTerms
  have kinds : new.kind = intent.kind := congrArg PaymentIntent.kind sameTerms
  have networks : new.network = intent.network := congrArg PaymentIntent.network sameTerms
  rw [owners] at owned
  have resolved := (prepared.mono grows).resolved
  rw [memos] at resolved
  exact ⟨creation, ⟨request, code, lookup, isCreation⟩, ⟨new, _, member, sameTerms⟩, owned,
    resolved, kinds.symm.trans kind, networks.symm.trans network⟩

/-! ## Returned intents -/

/-- The create request of a thread, and the view that it has returned. -/
def answer? (config : Config (service deployment)) (index : Nat) :
    Option (Creation × PaymentIntentView) :=
  match config.threads[index]? with
  | some ⟨request, .done (.ok (.intent view))⟩ => (Request.creation? request).map (·, view)
  | _ => none

theorem thread_of_answer? {index : Nat} {creation : Creation} {view : PaymentIntentView}
    (answered : answer? config index = some (creation, view)) :
    ∃ request, config.threads[index]? = some ⟨request, .done (.ok (.intent view))⟩ ∧
      request.creation? = some creation := by
  unfold answer? at answered
  split at answered
  · rename_i request shown lookup
    obtain ⟨found, isCreation, same⟩ := Option.map_eq_some_iff.mp answered
    obtain ⟨rfl, rfl⟩ := Prod.mk.inj same
    exact ⟨request, lookup, isCreation⟩
  · cases answered

/-- A lookup of its own has shown the thread the intent. -/
def FoundExisting (config : Config (service deployment)) (thread : Nat) (intent : PaymentIntent) :
    Prop :=
  ⟨thread, .query (.intentByMemo intent.consumerId intent.memo), .ok (some intent)⟩ ∈ config.trace

theorem key_of_returned (run : Run allows (Config.initial state) config) {thread : Nat}
    {consumerId memo : String} {intent : PaymentIntent}
    (returned : Returned (config.past thread) consumerId memo intent) :
    intent.consumerId = consumerId ∧ intent.memo = memo := by
  cases returned with
  | found lookup =>
      obtain ⟨before, after, choice, request, -, resumes, -⟩ :=
        exists_resumes_of_mem run (mem_pastOf.mp lookup)
      exact resumes.performs.believable _ rfl intent rfl
  | inserted new insertion owner isMemo =>
      obtain ⟨before, after, choice, request, -, resumes, -⟩ :=
        exists_resumes_of_mem run (mem_pastOf.mp insertion)
      obtain ⟨drawn, -, rfl, -⟩ := resumes.performs.of_create
      exact ⟨owner, isMemo⟩

/-- A create request that gives a memo returns an intent with it. -/
theorem memo_of_answer (run : Run allows (Config.initial state) config) {index : Nat}
    {creation : Creation} {view : PaymentIntentView}
    (answered : answer? config index = some (creation, view)) {memo : String}
    (isMemo : creation.memo = .value memo) : view.intent.memo = memo := by
  obtain ⟨request, finished, isCreation⟩ := thread_of_answer? answered
  obtain ⟨shown, owner, resolved, isReply, prepared, returned⟩ :=
    run.ensured creations_fulfilled finished creation isCreation _ rfl
  obtain rfl := Reply.intent.inj isReply
  have resolves := prepared.resolved
  rw [isMemo] at resolves
  exact (key_of_returned run returned).2.trans resolves.1

/-- Whatever a lookup finds has been inserted by some thread. -/
theorem inserted_of_lookup (start : state.store = .empty)
    (run : Run allows (Config.initial state) config) {thread : Nat} {consumerId memo : String}
    {intent : PaymentIntent}
    (lookup : ⟨thread, .query (.intentByMemo consumerId memo), .ok (some intent)⟩ ∈ config.trace) :
    ∃ maker, Inserted config maker intent := by
  obtain ⟨before, after, choice, request, reached, resumes, later, -⟩ :=
    exists_resumes_of_mem run lookup
  obtain ⟨same, -⟩ := resumes.performs.of_query
  have returned : intent ∈ returnedIntents
      ⟨.query (.intentByMemo consumerId memo), .ok (some intent)⟩ := List.mem_cons_self
  have stored := resumes.performs.find?_of_returned returned
  rw [same] at stored
  obtain ⟨maker, inserted⟩ := inserted_of_stored reached (by simp [start, Store.empty]) stored
  refine ⟨maker, inserted.mono (List.Subset.trans ?_ (trace_subset later)) rfl⟩
  rw [resumes.trace]
  exact List.subset_cons_self _ _

/-- A create request answers with the intent that it has made, or with one that its lookup
has found.  The intent was made by a create request of the same consumer with this memo, and
it has the network and the kind of the request that made it. -/
theorem create_answers (start : state.store = .empty)
    (run : Run allows (Config.initial state) config) {index : Nat} {creation : Creation}
    {view : PaymentIntentView} (answered : answer? config index = some (creation, view)) :
    (∀ memo, creation.memo = .value memo → view.intent.memo = memo) ∧
      (MadeBy config index creation view.intent ∨ FoundExisting config index view.intent ∧
        ∃ maker creation', MadeBy config maker creation' view.intent ∧
          creation'.consumer.username = creation.consumer.username) := by
  refine ⟨fun memo isMemo => memo_of_answer run answered isMemo, ?_⟩
  obtain ⟨request, finished, isCreation⟩ := thread_of_answer? answered
  obtain ⟨shown, owner, memo, isReply, prepared, returned⟩ :=
    run.ensured creations_fulfilled finished creation isCreation _ rfl
  obtain rfl := Reply.intent.inj isReply
  obtain ⟨isOwner, isMemo⟩ := key_of_returned run returned
  cases returned with
  | found lookup =>
      refine .inr ⟨?_, ?_⟩
      · rw [FoundExisting, isOwner, isMemo]
        exact mem_pastOf.mp lookup
      · obtain ⟨maker, inserted⟩ := inserted_of_lookup start run (mem_pastOf.mp lookup)
        obtain ⟨creation', made⟩ := inserted.madeBy run
        refine ⟨maker, creation', made, Store.username_unique made.owner ?_⟩
        rw [isOwner]
        exact belongsTo_of_upserted run prepared.upserted
  | inserted new insertion =>
      have inserted : Inserted config index view.intent := ⟨new, _, mem_pastOf.mp insertion, rfl⟩
      obtain ⟨creation', made⟩ := inserted.madeBy run
      obtain ⟨other, code, lookup, isOther⟩ := made.request
      obtain ⟨rfl, -⟩ := Thread.mk.inj (Option.some.inj (lookup.symm.trans finished))
      obtain rfl : creation = creation' := Option.some.inj (isCreation.symm.trans isOther)
      exact .inl made

/-- A second create request with the same memo, with a key of the other type. -/
def createdTwice : Config (service Sample.deployment) :=
  after (fun _ _ => true)
    (Sample.create 0 "alice" "7" "c" "pi" ++
      [.issue (.paymentIntents (.createPay (Sample.caller "alice" .prod) (Sample.payDto "7"))),
        .resume 2 (.draw "d"), .resume 2 .serve])
    Sample.start

theorem create_answers_of_createdTwice :
    ∃ creation view, answer? createdTwice 2 = some (creation, view) ∧
      (MadeBy createdTwice 2 creation view.intent ∨ FoundExisting createdTwice 2 view.intent ∧
        ∃ maker creation', MadeBy createdTwice maker creation' view.intent ∧
          creation'.consumer.username = creation.consumer.username) := by
  have isSome : (answer? createdTwice 2).isSome = true := by
    decide +kernel
  obtain ⟨⟨creation, view⟩, answered⟩ := Option.isSome_iff_exists.mp isSome
  have run : Run (fun _ _ => True) Sample.start createdTwice :=
    run_after (fun _ _ _ => trivial) _ _
  exact ⟨creation, view, answered, (create_answers rfl run answered).2⟩

/-- In general a returned intent is not on the network of its caller's key. -/
theorem not_create_answers :
    ¬ ∀ (deployment : Deployment) (state : World) (config : Config (service deployment)),
      state.store = .empty → Run (fun _ _ => True) (.initial state) config →
      ∀ (index : Nat) (creation : Creation) (view : PaymentIntentView),
        answer? config index = some (creation, view) →
        view.intent.network = resolveNetwork deployment creation.consumer ∧
          view.intent.kind = creation.kind := by
  intro answers
  have shown : (answer? createdTwice 2).map (fun answered =>
      (resolveNetwork Sample.deployment answered.1.consumer, answered.2.intent.network)) =
        some (.pubnet, .testnet) := by
    decide +kernel
  obtain ⟨⟨creation, view⟩, answered, isShown⟩ := Option.map_eq_some_iff.mp shown
  obtain ⟨isPubnet, isTestnet⟩ := Prod.mk.inj isShown
  obtain ⟨network, -⟩ := answers Sample.deployment Sample.world createdTwice rfl
    (run_after (fun _ _ _ => trivial) _ _) 2 creation view answered
  rw [isTestnet, isPubnet] at network
  cases network

end Provenance

end CosmosPay
