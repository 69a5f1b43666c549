import CosmosPay.Awaiting.Screening
import CosmosPay.Expiry
import CosmosPay.Screened
import CosmosPay.Ticks

/-!
# Tenants do not interfere

The requests of one user go the same if those of everybody else are left out of the run, as
long as no intent of the user is to get a hash that another tenant's intent holds, and the
observer lists all that is due.
-/

namespace CosmosPay

open Awaiting Tables Program PaymentIntents

/-! ## Work on a tenant's rows -/

section Work

variable {deployment : Deployment} {user other : String} {past : History signature}
variable {world screened : World} {choices : List Choice} {α : Type} {program : Promise α}
variable {ensures : History signature → Except ServiceError α → Prop}
variable {execution : Execution (service deployment) α}
variable {admits : World → Call → Prop}

/-- What calls do not undo, a program does not. -/
theorem Stable.executed {P : World → Prop} (stable : Stable P) (holds : P world)
    (executed : program.execute (service deployment) choices world = some execution) :
    P execution.state := by
  have conforms : program.Conforms (fun _ => True) (fun _ _ => True) (fun _ _ => True) [] :=
    conforms_of_forall program (fun _ _ => trivial) fun _ _ => trivial
  refine Conforms.keeps (fun _ => P) ?_ conforms holds executed
  intro past call choice world served holds _ performed
  have performs := Performs.of_perform performed
  exact ⟨trivial, stable.performs performs holds⟩

/-- The work on the user's rows goes the same in the screened world. -/
theorem follows_tenant
    (apart : ∀ world call, admits world call → HashesApart user world call)
    (conforms : program.Conforms Believable (permitsTenant deployment user) ensures past)
    (calls : program.Calls Call.Intends) (truthful : Truthful user past world)
    (isScreened : Screened user world screened)
    (meets : program.Meets (service deployment) admits choices world)
    (executed : program.execute (service deployment) choices world = some execution) :
    ∃ execution', program.execute (service deployment) choices screened = some execution' ∧
      execution'.outcome = execution.outcome ∧ execution'.choices = execution.choices ∧
      Screened user execution.state execution'.state := by
  have together := Conforms.follows
    (fun past world screened => Truthful user past world ∧ Screened user world screened) ?_
    (conforms.and_kind (calls [])) ⟨truthful, isScreened⟩ meets executed
  · obtain ⟨execution', executed', outcome, sameChoices, -, still⟩ := together
    exact ⟨execution', executed', outcome, sameChoices, still⟩
  · rintro past call choice world screened served ⟨truthful, isScreened⟩ ⟨permitted, intends⟩
      admitted performed
    obtain ⟨served', performed', same, still⟩ :=
      isScreened.performs truthful permitted intends (apart _ _ admitted) performed
    have performs := Performs.of_perform performed
    exact ⟨performs.believable, served', performed', same,
      truthful.performs permitted performs, still⟩

/-- The work on the rows of others changes nothing of the user's. -/
theorem skips_tenant (differ : user ≠ other)
    (conforms : program.Conforms Believable (permitsTenant deployment other) ensures past)
    (calls : program.Calls Call.Intends) (truthful : Truthful other past world)
    (isScreened : Screened user world screened)
    (executed : program.execute (service deployment) choices world = some execution) :
    Screened user execution.state screened := by
  refine (Conforms.keeps (fun past world => Truthful other past world ∧
    Screened user world screened) ?_ (conforms.and_kind (calls [])) ⟨truthful, isScreened⟩
    executed).2
  rintro past call choice world served ⟨truthful, isScreened⟩ ⟨permitted, intends⟩ performed
  have performs := Performs.of_perform performed
  have same := sameFor_of_performs truthful permitted performs differ
  exact ⟨performs.believable, truthful.performs permitted performs,
    isScreened.skip performed intends.flagless same.consumers (same.rows .paymentIntent)⟩

end Work

/-! ## The items of a batch -/

/-- Choices of which the order of a listing may have become shorter. -/
inductive Choice.Narrows : Choice → Choice → Prop
  | refl (choice : Choice) : Narrows choice choice
  | arrange {order order' : List String} (part : order'.Sublist order) :
      Narrows (.arrange order') (.arrange order)

/-- What a batch is drawn from, and how many rows it may list. -/
def Call.batch? : Call → Option ((PaymentIntent → Bool) × Nat)
  | .query (.expiredIntents time take) => some (fun row =>
      (row.status = .pending ∨ row.status = .submitted) ∧
        row.expiresAt.any fun expiresAt => expiresAt < time, take)
  | .query (.pendingIntents take) => some (fun row => row.status = .pending, take)
  | _ => none

/-- The batch that the call asks for is large enough. -/
def Roomy (world : World) (call : Call) : Prop :=
  ∀ batch ∈ call.batch?, world.store.intents.rows.countP batch.1 ≤ batch.2

/-- What is asked of the calls of a run. -/
def KeptApart (user : String) (world : World) (call : Call) : Prop :=
  Roomy world call ∧ HashesApart user world call

/-- The intent of the item is its owner's, or is gone. -/
def Ready (item : PaymentIntent × String) (world : World) : Prop :=
  world.store.Belongs item.2 .paymentIntent item.1.id

/-- The item is one of the user's. -/
def Owned (user : String) (item : PaymentIntent × String) : Bool :=
  item.2 = user

section Items

variable {deployment : Deployment} {user : String} {past : History signature} {world : World}
variable {owner id : String} {item : PaymentIntent × String}

/-- The work on an item begins as if its owner had asked for the intent. -/
theorem truthful_identified (belongs : world.store.Belongs owner .paymentIntent id) :
    Truthful owner [⟨.query (.intentIdOwned id owner), .ok (some id)⟩] world where
  enrolled consumerId enrolled := by
    obtain ⟨credentialId, row, member, -⟩ := enrolled
    cases List.mem_singleton.mp member
  owned model key owns := by
    cases owns with
    | shown _ row _ shows isKey =>
        obtain ⟨performed, member, answer, -, listed⟩ := shows
        obtain rfl := List.mem_singleton.mp member
        cases listed
    | identified _ name member =>
        cases List.mem_singleton.mp member
        exact belongs

theorem tenant_expireBody (owns : Owns past .paymentIntent item.1.id) :
    (expireBody item).Conforms Believable (permitsTenant deployment item.2)
      (ensuresTenant (fun _ _ => True) [(.paymentIntent, item.1.id)]) past :=
  tenant_seq (tenant_markExpired owns) fun _ _ owned _ => ensuresTenant_ok owned trivial

theorem tenant_reconcile (owns : Owns past .paymentIntent item.1.id) :
    (StellarObserver.reconcile item).Conforms Believable (permitsTenant deployment item.2)
      (ensuresTenant (fun _ _ => True) [(.paymentIntent, item.1.id)]) past := by
  refine tenant_horizon (calls_verify item.1) (.single owns) fun result later owned grows => ?_
  split
  · exact tenant_seq (tenant_markSucceeded (owns.mono grows)) fun _ _ owned _ =>
      ensuresTenant_ok owned trivial
  · exact ensuresTenant_ok owned trivial

theorem pared_refl (choices : List Choice) : Pared Choice.Narrows choices choices := by
  induction choices with
  | nil => exact .nil
  | cons choice choices ih => exact .cons (.refl choice) ih

/-- The user's items are worked off alike, the others leave no trace. -/
theorem screens_items {body : PaymentIntent × String → Promise Unit}
    (conforms : ∀ item past, Owns past .paymentIntent item.1.id →
      (body item).Conforms Believable (permitsTenant deployment item.2)
        (ensuresTenant (fun _ _ => True) [(.paymentIntent, item.1.id)]) past)
    (calls : ∀ item, (body item).Calls Call.Intends) :
    Screens (service deployment) (KeptApart user) Choice.Narrows (Screened user) (Owned user)
      Ready body where
  stays {item _ _ _ _} ready executed :=
    (belongs_stable item.2 .paymentIntent item.1.id).executed ready executed
  follows item isOwn := by
    rintro choices world screened execution ⟨isScreened, ready⟩ meets executed
    obtain ⟨intent, owner⟩ := item
    obtain rfl : owner = user := of_decide_eq_true isOwn
    obtain ⟨execution', executed', outcome, sameChoices, still⟩ :=
      follows_tenant (fun _ _ => And.right)
        (conforms (intent, owner) _ (.identified intent.id owner (List.mem_singleton.mpr rfl)))
        (calls (intent, owner)) (truthful_identified ready) isScreened meets executed
    obtain ⟨used, split, yields⟩ := yields_of_execute executed'
    refine ⟨used, used, execution'.state, ?_, pared_refl used, outcome ▸ yields, still⟩
    rw [split, sameChoices]
  skips {item _ _ _ _} isOther ready isScreened executed := by
    obtain ⟨intent, owner⟩ := item
    have differ : user ≠ owner := fun same => of_decide_eq_false isOther same.symm
    exact skips_tenant differ
      (conforms (intent, owner) _ (.identified intent.id owner (List.mem_singleton.mpr rfl)))
      (calls (intent, owner)) (truthful_identified ready) isScreened executed

end Items

/-! ## Listings -/

section Listings

variable {user : String} {world screened : World} {order : List String}

theorem withConsumer_filter {store screened : Store} (isScreened : store.Screened user screened)
    (listed : List PaymentIntent) :
    screened.withConsumer (listed.filter fun row => store.belongsTo row.consumerId user) =
      (store.withConsumer listed).filter (Owned user) := by
  induction listed with
  | nil => rfl
  | cons intent listed ih =>
      unfold Store.withConsumer at ih ⊢
      cases isOwn : store.belongsTo intent.consumerId user with
      | true =>
          obtain ⟨owner, found, named⟩ := Store.belongsTo_iff.mp isOwn
          obtain ⟨owner', found', named'⟩ :=
            Store.belongsTo_iff.mp ((isScreened.belongsTo_eq intent.consumerId).trans isOwn)
          have isUser : Owned user (intent, owner.apisixUsername) = true := decide_eq_true named
          have keeps : (intent :: listed).filter (fun row => store.belongsTo row.consumerId user) =
              intent :: listed.filter fun row => store.belongsTo row.consumerId user :=
            List.filter_cons_of_pos isOwn
          rw [keeps, List.filterMap_cons, List.filterMap_cons, found, found',
            Option.map_some, Option.map_some, List.filter_cons_of_pos isUser, ih, named, named']
      | false =>
          rw [List.filter_cons_of_neg (by simp [isOwn]), ih, List.filterMap_cons]
          cases found : store.consumers.find? intent.consumerId with
          | none => rfl
          | some owner =>
              have isOther : ¬ Owned user (intent, owner.apisixUsername) = true := by
                intro named
                simp [Store.belongsTo_iff.mpr ⟨owner, found, of_decide_eq_true named⟩] at isOwn
              rw [Option.map_some, List.filter_cons_of_neg isOther]

/-- The user's rows of a listing, in the order in which they were listed. -/
theorem arranged_own {store screened : Store} (isScreened : store.Screened user screened)
    {keep : PaymentIntent → Bool} {arranged : List PaymentIntent}
    (answered : arrange? PaymentIntent.id (store.intents.rows.filter keep) order =
      some arranged) :
    arrange? PaymentIntent.id (screened.intents.rows.filter keep)
        ((arranged.filter fun row => store.belongsTo row.consumerId user).map PaymentIntent.id) =
      some (arranged.filter fun row => store.belongsTo row.consumerId user) := by
  refine (arrange?_eq_some_iff (screened.nodup_ids keep)).mpr ⟨?_, rfl⟩
  obtain ⟨perm, -⟩ := (arrange?_eq_some_iff (store.nodup_ids keep)).mp answered
  refine (perm.filter _).trans ?_
  rw [List.filter_filter]
  refine List.Perm.trans (List.Perm.of_eq (List.filter_congr fun row _ => ?_))
    isScreened.perm_filter.symm
  exact Bool.and_comm _ _

theorem sublist_own {arranged : List PaymentIntent} (keep : PaymentIntent → Bool)
    (isOrder : arranged.map PaymentIntent.id = order) :
    ((arranged.filter keep).map PaymentIntent.id).Sublist order :=
  isOrder ▸ List.filter_sublist.map _

theorem ready_of_listed {listed : List PaymentIntent}
    (stored : ∀ intent ∈ listed, intent ∈ world.store.intents.rows) :
    ∀ item ∈ world.store.withConsumer listed, Ready item world := by
  rintro ⟨intent, owner⟩ member
  obtain ⟨other, isListed, isItem⟩ := List.mem_filterMap.mp member
  obtain ⟨row, found, pair⟩ := Option.map_eq_some_iff.mp isItem
  obtain ⟨rfl, rfl⟩ := Prod.mk.inj pair
  have lists : world.store.Lists row.apisixUsername .paymentIntent other :=
    .of_mem (stored other isListed) (Store.belongsTo_iff.mpr ⟨row, found, rfl⟩)
  exact lists.belongs

/-- What a batch is drawn from is listed as a whole. -/
theorem take_arranged {store : Store} {keep : PaymentIntent → Bool} {take : Nat}
    {arranged : List PaymentIntent} (fits : store.intents.rows.countP keep ≤ take)
    (answered : arrange? PaymentIntent.id (store.intents.rows.filter keep) order =
      some arranged) : arranged.take take = arranged := by
  obtain ⟨perm, -⟩ := (arrange?_eq_some_iff (store.nodup_ids keep)).mp answered
  refine List.take_of_length_le ?_
  rw [perm.length_eq, ← List.countP_eq_length_filter]
  exact fits

theorem batch_own {store screened : Store} (isScreened : store.Screened user screened)
    {keep : PaymentIntent → Bool} {take : Nat} {arranged : List PaymentIntent}
    (fits : store.intents.rows.countP keep ≤ take)
    (answered : arrange? PaymentIntent.id (store.intents.rows.filter keep) order =
      some arranged) :
    screened.withConsumer
        ((arranged.filter fun row => store.belongsTo row.consumerId user).take take) =
      (store.withConsumer (arranged.take take)).filter (Owned user) := by
  have shorter :
      (arranged.filter fun row => store.belongsTo row.consumerId user).length ≤ take := by
    have whole := congrArg List.length (take_arranged fits answered)
    have fewer := List.length_filter_le (fun row => store.belongsTo row.consumerId user) arranged
    rw [List.length_take] at whole
    omega
  rw [List.take_of_length_le shorter, take_arranged fits answered, withConsumer_filter isScreened]

/-- A listing of the screened world is the user's part of the other. -/
theorem lists_own {asked : Query} {listing : asked.Answer → List (PaymentIntent × String)}
    (answers : ∀ order answer, asked.answer order world.store = some answer →
      ∃ order' answer', order'.Sublist order ∧
        asked.answer order' screened.store = some answer' ∧
        listing answer' = (listing answer).filter (Owned user) ∧
        ∀ item ∈ listing answer, Ready item world)
    (isScreened : Screened user world screened) {choice : Choice}
    {served : Served signature (.query asked) World Request}
    (performed : World.perform (.query asked) choice world = some served) :
    ∃ choice' served', Choice.Narrows choice' choice ∧
      World.perform (.query asked) choice' screened = some served' ∧
      Screened user served.state served'.state ∧
      ListsOwn (Owned user) (Ready · served.state) listing served.answer served'.answer := by
  -- a choice that gives the other order, and none where no order was given
  have asks : ∀ choice' : Choice, choice' ≠ .reject → ∀ world : World,
      World.perform (.query asked) choice' world =
        (asked.answer choice'.order world.store).map fun answer => world.reply (.ok answer) := by
    intro choice' accepted world
    cases choice' <;> first | rfl | exact absurd rfl accepted
  by_cases rejected : choice = .reject
  · subst rejected
    obtain rfl := Option.some.inj performed
    exact ⟨.reject, _, .refl _, rfl, isScreened, .refused _⟩
  · rw [asks choice rejected] at performed
    obtain ⟨answer, found, rfl⟩ := Option.map_eq_some_iff.mp performed
    obtain ⟨order', answer', part, found', same, allReady⟩ := answers choice.order answer found
    obtain ⟨choice', narrows, accepted, isOrder⟩ : ∃ choice' : Choice,
        choice'.Narrows choice ∧ choice' ≠ .reject ∧ choice'.order = order' := by
      cases choice with
      | arrange order => exact ⟨.arrange order', .arrange part, by simp, rfl⟩
      | _ => exact ⟨_, .refl _, rejected, (List.sublist_nil.mp part).symm⟩
    refine ⟨choice', screened.reply (.ok answer'), narrows, ?_, isScreened,
      .listed answer answer' same allReady⟩
    rw [asks choice' accepted, isOrder, found']
    rfl

theorem lists_own_expired {now take : Nat} (isScreened : Screened user world screened)
    (fits : Roomy world (.query (.expiredIntents now take))) {choice : Choice}
    {served : Served signature (.query (.expiredIntents now take)) World Request}
    (performed : World.perform (.query (.expiredIntents now take)) choice world = some served) :
    ∃ choice' served', Choice.Narrows choice' choice ∧
      World.perform (.query (.expiredIntents now take)) choice' screened = some served' ∧
      Screened user served.state served'.state ∧
      ListsOwn (Owned user) (Ready · served.state) (fun listed => listed) served.answer
        served'.answer := by
  refine lists_own (fun order answer answered => ?_) isScreened performed
  obtain ⟨arranged, isArranged, rfl⟩ := Option.map_eq_some_iff.mp answered
  refine ⟨_, _, sublist_own (fun row => world.store.belongsTo row.consumerId user)
    (arrange?_eq_some isArranged).1, ?_, batch_own isScreened.store (fits (_, _) rfl) isArranged,
    ready_of_listed fun intent listed => ?_⟩
  · exact Option.map_eq_some_iff.mpr ⟨_, arranged_own isScreened.store isArranged, rfl⟩
  · have member := (arrange?_eq_some isArranged).2.2 intent (List.mem_of_mem_take listed)
    exact List.mem_of_mem_filter member

theorem lists_own_pending {take : Nat} (isScreened : Screened user world screened)
    (fits : Roomy world (.query (.pendingIntents take))) {choice : Choice}
    {served : Served signature (.query (.pendingIntents take)) World Request}
    (performed : World.perform (.query (.pendingIntents take)) choice world = some served) :
    ∃ choice' served', Choice.Narrows choice' choice ∧
      World.perform (.query (.pendingIntents take)) choice' screened = some served' ∧
      Screened user served.state served'.state ∧
      ListsOwn (Owned user) (Ready · served.state) (fun listed => listed) served.answer
        served'.answer := by
  refine lists_own (fun order answer answered => ?_) isScreened performed
  obtain ⟨arranged, isSorted, rfl⟩ := Option.map_eq_some_iff.mp answered
  obtain ⟨isArranged, sorted⟩ := Option.filter_eq_some_iff.mp isSorted
  refine ⟨_, _, sublist_own (fun row => world.store.belongsTo row.consumerId user)
    (arrange?_eq_some isArranged).1, ?_, batch_own isScreened.store (fits (_, _) rfl) isArranged,
    ready_of_listed fun intent listed => ?_⟩
  · refine Option.map_eq_some_iff.mpr ⟨_, Option.filter_eq_some_iff.mpr
      ⟨arranged_own isScreened.store isArranged, ?_⟩, rfl⟩
    exact decide_eq_true ((of_decide_eq_true sorted).filter _)
  · have member := (arrange?_eq_some isArranged).2.2 intent (List.mem_of_mem_take listed)
    exact List.mem_of_mem_filter member

end Listings

/-! ## Ticks and requests -/

section Ticks

variable {deployment : Deployment} {user : String} {world screened : World} {node : Nat}

theorem follows_pass {asked : Query} {listing : asked.Answer → List (PaymentIntent × String)}
    {body : PaymentIntent × String → Promise Unit}
    (screens : Screens (service deployment) (KeptApart user) Choice.Narrows (Screened user)
      (Owned user) Ready body)
    (lists : ∀ {world screened : World} {choice : Choice}
      {served : Served signature (.query asked) World Request}, Screened user world screened →
      Roomy world (.query asked) → World.perform (.query asked) choice world = some served →
      ∃ choice' served', Choice.Narrows choice' choice ∧
        World.perform (.query asked) choice' screened = some served' ∧
        Screened user served.state served'.state ∧
        ListsOwn (Owned user) (Ready · served.state) listing served.answer served'.answer) :
    (Promise.query asked >>= fun listed =>
      (listing listed).forM fun item => caught (body item)).Follows (service deployment)
        (KeptApart user) Choice.Narrows (Screened user) (Screened user)
      (Promise.query asked >>= fun listed =>
        (listing listed).forM fun item => caught (body item)) :=
  screens.pass fun isScreened apart performed => lists isScreened apart.1 performed

theorem follows_expiryPass :
    (StellarObserver.expiryPass deployment).Follows (service deployment) (KeptApart user)
      Choice.Narrows (Screened user) (Screened user) (StellarObserver.expiryPass deployment) := by
  refine Follows.bind (follows_call fun {choice _ _ served} isScreened _ performed => ?_) fun now =>
    follows_pass (screens_items (fun _ _ => tenant_expireBody)
      fun item => (Calls.bind (handles_markExpired _ _) fun _ => calls_pure _).mono
        fun _ => Call.Handles.intends)
      fun isScreened fits performed => lists_own_expired isScreened fits performed
  have told : World.perform .now choice _ = some served := performed
  obtain rfl := World.perform_now told
  cases choice with
  | serve => exact ⟨_, _, .refl _, rfl, congrArg Except.ok isScreened.clock, isScreened⟩
  | _ => cases performed

theorem follows_reconcilePass :
    (StellarObserver.reconcilePass deployment).Follows (service deployment) (KeptApart user)
      Choice.Narrows (Screened user) (Screened user) (StellarObserver.reconcilePass deployment) :=
  follows_pass (screens_items (fun _ _ => tenant_reconcile)
    fun row => (handles_reconcile row).mono fun _ => Call.Handles.intends)
    fun isScreened fits performed => lists_own_pending isScreened fits performed

/-- The flags are the same in both worlds. -/
theorem Screened.enter (isScreened : Screened user world screened) {choice : Choice}
    {served : Served signature (.enterTick node) World Request}
    (performed : World.perform (.enterTick node) choice world = some served) :
    ∃ served', World.perform (.enterTick node) choice screened = some served' ∧
      served'.answer = served.answer ∧ Screened user served.state served'.state := by
  cases choice with
  | serve =>
      simp only [World.perform, isScreened.running] at performed ⊢
      split at performed
      · rename_i taken
        obtain rfl := Option.some.inj performed
        exact ⟨_, if_pos taken, rfl, isScreened⟩
      · rename_i free
        obtain rfl := Option.some.inj performed
        exact ⟨_, if_neg free, rfl, isScreened.store, isScreened.ledger, isScreened.accounts,
          isScreened.clock, rfl⟩
  | _ => cases performed

theorem Screened.leave (isScreened : Screened user world screened) {choice : Choice}
    {served : Served signature (.leaveTick node) World Request}
    (performed : World.perform (.leaveTick node) choice world = some served) :
    ∃ served', World.perform (.leaveTick node) choice screened = some served' ∧
      served'.answer = served.answer ∧ Screened user served.state served'.state := by
  cases choice with
  | serve =>
      obtain rfl := Option.some.inj performed
      refine ⟨_, rfl, rfl, isScreened.store, isScreened.ledger, isScreened.accounts,
        isScreened.clock, ?_⟩
      exact congrArg (List.filter (· ≠ node)) isScreened.running
  | _ => cases performed

/-- A tick does to the user's intents what it does without the others. -/
theorem follows_tick :
    (StellarObserver.tick deployment node).Follows (service deployment) (KeptApart user)
      Choice.Narrows (Screened user) (Screened user) (StellarObserver.tick deployment node) := by
  refine Follows.bind (follows_call fun {choice _ _ served} isScreened _ performed => ?_)
    fun entered => ?_
  · obtain ⟨served', performed', same, still⟩ := isScreened.enter performed
    exact ⟨choice, served', .refl choice, performed', same, still⟩
  · cases entered with
    | false => exact follows_pure _
    | true =>
        refine Follows.bind (Follows.caught (follows_expiryPass.bind fun _ =>
          follows_reconcilePass)) fun _ => follows_call fun {choice _ _ served} isScreened _
            performed => ?_
        obtain ⟨served', performed', same, still⟩ := isScreened.leave performed
        exact ⟨choice, served', .refl choice, performed', same, still⟩

end Ticks

section Requests

variable {deployment : Deployment} {user : String} {world screened : World}

/-- A call that leaves the consumers, the intents and the flags alone. -/
def Call.Aside : Call → Prop
  | .write (.upsertConsumer _ _) => False
  | .write (.create .paymentIntent _) => False
  | .write (.update .paymentIntent _ _) => False
  | .write (.delete .paymentIntent _) => False
  | .enterTick _ => False
  | .leaveTick _ => False
  | _ => True

theorem Call.Dispatches.aside {call : Call} (dispatches : call.Dispatches) : call.Aside := by
  unfold Call.Aside
  split <;> first | exact dispatches | trivial

theorem Call.Aside.flagless {call : Call} (aside : call.Aside) : call.Flagless := by
  unfold Call.Flagless
  split <;> first | exact aside.elim | trivial

theorem aside_background (task : BackgroundTask) : (task.body deployment).Calls Call.Aside :=
  calls_task (fun _ _ => trivial) (fun _ => trivial) (fun _ => Call.Dispatches.aside) task

theorem Screened.aside (isScreened : Screened user world screened) {call : Call} {choice : Choice}
    {served : Served signature call World Request}
    (performed : World.perform call choice world = some served) (aside : call.Aside) :
    Screened user served.state screened := by
  have performs := Performs.of_perform performed
  have consumers : served.state.store.consumers = world.store.consumers := by
    rcases performs.consumers_eq with ⟨name, credentialId, row, isUpsert⟩ | same
    · obtain rfl := congrArg Performed.call isUpsert
      exact aside.elim
    · exact same
  have rows : ∀ id, served.state.store.find? .paymentIntent id =
      world.store.find? .paymentIntent id := by
    cases performs.rows .paymentIntent with
    | kept same => exact same
    | created new id createdAt isCreate =>
        obtain rfl := congrArg Performed.call isCreate
        exact aside.elim
    | updated id patch old isUpdate =>
        obtain rfl := congrArg Performed.call isUpdate
        exact aside.elim
    | deleted id old isDelete =>
        obtain rfl := congrArg Performed.call isDelete
        exact aside.elim
    | cascaded id old isDelivery => cases isDelivery
  refine isScreened.skip performed aside.flagless (fun row _ => by rw [consumers])
    fun intent => ?_
  have owners : served.state.store.belongsTo intent.consumerId user =
      world.store.belongsTo intent.consumerId user := by
    rw [Store.belongsTo, consumers]
    rfl
  rw [Store.holds_intent, Store.holds_intent, Store.mem_intents, Store.mem_intents, rows, owners]

end Requests

/-! ## Runs without the others -/

/-- Requests about intents, ticks, and the tasks that they detach. -/
def Request.aboutIntents : Request → Bool
  | .paymentIntents _ => true
  | .tick _ => true
  | .background _ => true
  | _ => false

/-- The requests of the user, and the ticks. -/
def Request.keptFor (user : String) : Request → Bool
  | .paymentIntents request => request.consumer.username = user
  | .tick _ => true
  | _ => false

section Runs

variable {deployment : Deployment} {user : String}

theorem permits_caller {request : PaymentIntentsRequest} {caller : String}
    (isCaller : request.consumer.username = caller) :
    (Request.body deployment (.paymentIntents request)).Conforms Believable
      (permitsTenant deployment caller)
      ((tenancy deployment).ensures (.paymentIntents request)) [] :=
  (tenancy_fulfilled.bodies (.paymentIntents request)).mono
    (fun _ _ permitted => permitted caller (congrArg some isCaller)) fun _ _ ensured => ensured

/-- The user's requests and the ticks go the same without the requests of the others. -/
theorem separates_user :
    Separates (service deployment) (KeptApart user) Choice.Narrows (Screened user)
      (Request.keptFor user) (Request.isTick · = false) fun request =>
        request.aboutIntents = true where
  serves {request choices world screened execution} about kept isScreened meets executed := by
    cases request with
    | paymentIntents request =>
        obtain ⟨execution', executed', outcome, -, still⟩ :=
          follows_tenant (fun _ _ => And.right) (permits_caller (of_decide_eq_true kept))
            ((handles_paymentIntents request).mono fun _ => Call.Handles.intends)
            (truthful_nil user _) isScreened meets executed
        exact ⟨choices, execution', pared_refl choices, fun _ => rfl, executed', outcome, still⟩
    | tick node =>
        have follows : ((fun _ => Reply.done) <$> StellarObserver.tick deployment node).Follows
            (service deployment) (KeptApart user) Choice.Narrows (Screened user) (Screened user)
            ((fun _ => Reply.done) <$> StellarObserver.tick deployment node) :=
          follows_tick.bind fun _ => follows_pure _
        obtain ⟨used, pared, final, split, isPared, ⟨past, spawned, executed'⟩, still⟩ :=
          follows isScreened meets executed
        refine ⟨pared ++ [], _, ?_, by rintro ⟨⟩, executed' [], rfl, still⟩
        rw [split]
        exact isPared.append .nil
    | background task => cases kept
    | _ => cases about
  skips {request choices world screened execution} about left isScreened executed := by
    cases request with
    | paymentIntents request =>
        have differ : user ≠ request.consumer.username :=
          fun same => of_decide_eq_false left same.symm
        exact skips_tenant differ (permits_caller rfl)
          ((handles_paymentIntents request).mono fun _ => Call.Handles.intends)
          (truthful_nil _ _) isScreened executed
    | tick node => cases left
    | background task =>
        have calls : (Request.body deployment (.background task)).Calls Call.Aside :=
          (aside_background task).map _
        refine Conforms.keeps (fun _ world => Screened user world screened) ?_ (calls [])
          isScreened executed
        intro past call choice world served isScreened aside performed
        exact ⟨trivial, isScreened.aside performed aside⟩
    | _ => cases about
  moves isScreened moved := isScreened.move moved

theorem screened_empty {start : World} (empty : start.store = .empty) :
    Screened user start start where
  store := by
    rw [empty]
    refine ⟨fun _ _ => Iff.rfl, fun intent => ?_, fun _ known => known, fun intent member => ?_⟩
    · exact ⟨fun member => absurd member List.not_mem_nil, And.left⟩
    · exact absurd member List.not_mem_nil
  ledger := rfl
  accounts := rfl
  clock := rfl
  running := rfl

/-- The run goes the same without the requests of everybody else: each request of the user is
served with the same choices and has the same outcome, and the user has the same intents in
the end. -/
def Separable (deployment : Deployment) (user : String) (start : World)
    (turns : List (Turn (service deployment))) (final : World) : Prop :=
  ∃ turns' final', Turns (service deployment) (fun _ _ => True) start turns' final' ∧
    List.Forall₂ (Turn.Alike Choice.Narrows (Request.isTick · = false))
      (turns.filter (Turn.kept (Request.keptFor user))) turns' ∧
    ∀ intent, final'.store.Holds user .paymentIntent intent ↔
      final.store.Holds user .paymentIntent intent

/-- Tenants do not interfere, as long as no intent of the user is given a hash that another
tenant's intent holds. -/
theorem tenants_separable {start final : World} {turns : List (Turn (service deployment))}
    (empty : start.store = .empty)
    (about : ∀ request choices outcome, .serve request choices outcome ∈ turns →
      Request.aboutIntents request = true)
    (served : Turns (service deployment) (KeptApart user) start turns final) :
    Separable deployment user start turns final := by
  obtain ⟨turns', final', served', match', still⟩ :=
    separates_user.turns served about (screened_empty empty)
  refine ⟨turns', final', served', match', fun intent => ?_⟩
  have isScreened : Screened user final final' := still
  rw [Store.holds_intent, Store.holds_intent, isScreened.store.intents,
    isScreened.store.belongsTo_eq]
  tauto

end Runs

/-! ## Two tenants -/

section Samples

instance (world : World) (call : Call) : Decidable (Roomy world call) :=
  inferInstanceAs (Decidable (∀ batch ∈ call.batch?, _))

instance (user : String) (world : World) (call : Call) : Decidable (HashesApart user world call) :=
  inferInstanceAs (Decidable (∀ update ∈ call.intentUpdate?, _))

instance (user : String) (world : World) (call : Call) : Decidable (KeptApart user world call) :=
  inferInstanceAs (Decidable (_ ∧ _))

/-- A run from the sample world. -/
def sampleRun (admits : World → Call → Prop) [decides : ∀ world call, Decidable (admits world call)]
    (script : List (Request × List Choice)) :
    Option (List (Turn (service Sample.deployment)) × World) :=
  have : ∀ (world : (service Sample.deployment).State) (call : signature.Call),
      Decidable (admits world call) := decides
  replay (service Sample.deployment) admits script Sample.world

def createFor (username memo consumerId intentId : String) : Request × List Choice :=
  (.paymentIntents (.createPay (Sample.caller username) (Sample.payDto memo)),
    [.draw consumerId, .serve, .serve, .draw intentId, .serve])

theorem sampleRun_eq_some {admits : World → Call → Prop}
    [decides : ∀ world call, Decidable (admits world call)]
    {script : List (Request × List Choice)} {turns : List (Turn (service Sample.deployment))}
    {final : World} (replayed : sampleRun admits script = some (turns, final)) :
    Turns (service Sample.deployment) admits Sample.world turns final ∧
      turns.map Turn.served? = script.map some :=
  @turns_of_replay _ (service Sample.deployment) admits decides _ _ _ _ replayed

theorem sampleRun_of_turns {admits : World → Call → Prop}
    [decides : ∀ world call, Decidable (admits world call)]
    {script : List (Request × List Choice)} {turns : List (Turn (service Sample.deployment))}
    {final : World} (served : Turns (service Sample.deployment) admits Sample.world turns final)
    (isScript : turns.map Turn.served? = script.map some) :
    sampleRun admits script = some (turns, final) :=
  @replay_of_turns _ (service Sample.deployment) admits decides _ _ _ _ served isScript

/-- Two tenants create an intent each, one is paid, and the observer looks at the other. -/
def apartRun : List (Request × List Choice) :=
  [createFor "alice" "7" "a" "pa", createFor "bob" "8" "b" "pb",
    (.paymentIntents (.validate (Sample.caller "alice") "pa" (Sample.hash '1')),
      List.replicate 7 .serve),
    (.tick 0, [.serve, .serve, .serve, .arrange ["pb"], .serve, .serve, .serve])]

theorem tenants_separable_of_apartRun : ∃ turns final,
    sampleRun (KeptApart "alice") apartRun = some (turns, final) ∧
      Separable Sample.deployment "alice" Sample.world turns final := by
  obtain ⟨⟨turns, final⟩, replayed⟩ := Option.isSome_iff_exists.mp
    (by decide +kernel : (sampleRun (KeptApart "alice") apartRun).isSome = true)
  obtain ⟨served, isScript⟩ := sampleRun_eq_some replayed
  have about : ∀ entry ∈ apartRun, entry.1.aboutIntents = true := by decide
  refine ⟨turns, final, replayed, tenants_separable rfl (fun request choices outcome member => ?_)
    served⟩
  exact about _ (mem_script isScript member)

/-- The second tenant's intent gets the hash of the payment to the first. -/
def clashingRun : List (Request × List Choice) :=
  [createFor "alice" "7" "a" "pa", createFor "bob" "8" "b" "pb",
    (.paymentIntents (.update (Sample.caller "bob") "pb"
      ⟨.undefined, .value (Sample.hash '1'), .undefined⟩), List.replicate 3 .serve),
    (.paymentIntents (.validate (Sample.caller "alice") "pa" (Sample.hash '1')),
      List.replicate 7 .serve)]

/-- The turn was refused for a unique index. -/
def Taken : Turn (service Sample.deployment) → Bool
  | .serve _ _ outcome =>
      match (outcome : Except ServiceError Reply) with
      | .error err => isUniqueViolation err
      | .ok _ => false
  | .move _ => false

/-- A hash that another tenant's intent holds first makes a difference. -/
theorem not_separable : ¬ ∀ (user : String) (start final : World)
    (turns : List (Turn (service Sample.deployment))), start.store = .empty →
      (∀ request choices outcome, .serve request choices outcome ∈ turns →
        Request.aboutIntents request = true) →
      Turns (service Sample.deployment) Roomy start turns final →
      Separable Sample.deployment user start turns final := by
  intro claim
  have refused : (sampleRun Roomy clashingRun).any (fun run =>
      (run.1.filter (Turn.kept (Request.keptFor "alice"))).map Taken = [false, true]) = true := by
    decide +kernel
  have accepted : (sampleRun (fun _ _ => True) (clashingRun.filter fun entry =>
      entry.1.keptFor "alice")).any (fun run => run.1.map Taken = [false, false]) = true := by
    decide +kernel
  obtain ⟨⟨turns, final⟩, replayed, taken⟩ := (Option.any_eq_true _ _).mp refused
  obtain ⟨served, isScript⟩ := sampleRun_eq_some replayed
  have about : ∀ entry ∈ clashingRun, entry.1.aboutIntents = true := by decide
  obtain ⟨turns', final', served', alike, -⟩ := claim "alice" Sample.world final turns rfl
    (fun request choices outcome member => about _ (mem_script isScript member)) served
  have noTick : ∀ entry ∈ clashingRun.filter fun entry => entry.1.keptFor "alice",
      entry.1.isTick = false := by
    decide
  -- what is left of the run is determined by its requests
  have replayed' : sampleRun (fun _ _ => True) (clashingRun.filter fun entry =>
      entry.1.keptFor "alice") = some (turns', final') :=
    sampleRun_of_turns served' (script_of_alike
      (script_filter (Request.keptFor "alice") isScript) alike noTick)
  rw [replayed'] at accepted
  have outcomes : ∀ first second,
      Turn.Alike Choice.Narrows (Request.isTick · = false) first second →
        Taken first = Taken second := by
    rintro _ _ (_ | _) <;> rfl
  have same :
      (turns.filter (Turn.kept (Request.keptFor "alice"))).map Taken = turns'.map Taken :=
    List.forall₂_eq_eq_eq ▸ List.forall₂_map_left_iff.mpr
      (List.forall₂_map_right_iff.mpr (alike.imp outcomes))
  rw [same] at taken
  simp [of_decide_eq_true accepted] at taken

end Samples

end CosmosPay
