import CosmosPay.Attempts
import CosmosPay.Reports

/-!
# Reading a listing page by page

A client that wants all intents of a caller, or all deliveries of an endpoint, asks for one
page after another until it has got to the total.  Every page is a query of its own, and the
database may order rows of the same millisecond differently in each.
-/

namespace CosmosPay

open Awaiting Program Tables PaymentIntents

/-- An endpoint that lists rows of a table page by page. -/
structure Pager (ρ Page : Type) where
  fetch : (skip : Nat) → Promise Page
  data : Page → List ρ
  total : Page → Nat

/-- The intents of a caller. -/
def intentPager (consumer : GatewayConsumer) (status : Option PaymentIntentStatus) (take : Nat) :
    Pager PaymentIntent PaymentIntentPage where
  fetch skip := PaymentIntents.findAll consumer ⟨status, take, skip⟩
  data := PaymentIntentPage.data
  total := PaymentIntentPage.total

/-- The deliveries of an endpoint. -/
def deliveryPager (consumer : GatewayConsumer) (endpointId : String)
    (status : Option WebhookDeliveryStatus) (take : Nat) :
    Pager WebhookDelivery WebhookDeliveryPage where
  fetch skip := Webhooks.listDeliveries consumer endpointId ⟨status, take, skip⟩
  data := WebhookDeliveryPage.data
  total := WebhookDeliveryPage.total

/-- `createdAt: 'desc'` -/
def PaymentIntent.recency (row : PaymentIntent) : Int :=
  -row.createdAt

def WebhookDelivery.recency (row : WebhookDelivery) : Int :=
  -row.createdAt

/-- The intents that a caller's listing is about. -/
def Store.intentsMatching (store : Store) (username : String)
    (status : Option PaymentIntentStatus) : List PaymentIntent :=
  store.intents.rows.filter fun row =>
    store.belongsTo row.consumerId username ∧ (status = none ∨ status = row.status)

/-- The deliveries that an endpoint's listing is about. -/
def Store.deliveriesMatching (store : Store) (endpointId : String)
    (status : Option WebhookDeliveryStatus) : List WebhookDelivery :=
  (store.tables .webhookDelivery).rows.filter fun row =>
    row.endpointId = endpointId ∧ (status = none ∨ status = row.status)

/-- Is there such an endpoint of the caller? -/
def Store.ownsEndpoint (store : Store) (username endpointId : String) : Bool :=
  (store.find? .webhookEndpoint endpointId).any fun row =>
    store.belongsTo row.consumerId username

section Pagers

variable {ρ Page : Type}

/-- The pages with `skip = 0, take, 2 * take, …`, fetched from an unchanging database until the
total is reached. -/
structure Pager.Fetched (pager : Pager ρ Page) (deployment : Deployment) (world : World)
    (take : Nat) (pages : List Page) : Prop where
  returned : ∀ index page, pages[index]? = some page →
    (pager.fetch (index * take)).Returns (service deployment) world page
  continued : ∀ index page, pages[index]? = some page → index + 1 < pages.length →
    (index + 1) * take < pager.total page
  reached : ∃ page, pages.getLast? = some page ∧ pager.total page ≤ pages.length * take

/-- The total can be reached, and whichever pages are fetched, they list each of the rows
exactly once. -/
def Pager.ListsOnce (pager : Pager ρ Page) (deployment : Deployment) (world : World) (take : Nat)
    (rows : List ρ) : Prop :=
  (∃ pages, pager.Fetched deployment world take pages) ∧
    ∀ pages, pager.Fetched deployment world take pages → (pages.flatMap pager.data).Perm rows

/-- What the pages of an endpoint are: cut out of a listing of the rows, with their number. -/
structure Pager.Cuts (pager : Pager ρ Page) (deployment : Deployment) (world : World) (take : Nat)
    (column : ρ → Int) (rows : List ρ) : Prop where
  returned : ∀ skip page, (pager.fetch skip).Returns (service deployment) world page →
    PageOf column rows take skip (pager.data page) ∧ pager.total page = rows.length
  offered : ∀ skip data, PageOf column rows take skip data →
    ∃ page, (pager.fetch skip).Returns (service deployment) world page ∧ pager.data page = data

variable {pager : Pager ρ Page} {deployment : Deployment} {world : World} {take : Nat}
variable {column : ρ → Int} {rows : List ρ}

/-- Whatever the database may show on each page, some client is shown. -/
theorem Pager.Cuts.exists_pages (cuts : pager.Cuts deployment world take column rows)
    {shown : List (List ρ)}
    (cut : ∀ index data, shown[index]? = some data → PageOf column rows take (index * take) data) :
    ∃ pages : List Page, pages.map pager.data = shown ∧ ∀ index page, pages[index]? = some page →
      (pager.fetch (index * take)).Returns (service deployment) world page := by
  induction shown using List.reverseRecOn with
  | nil => exact ⟨[], rfl, fun index page isPage => by simp at isPage⟩
  | append_singleton shown data ih =>
      obtain ⟨pages, isShown, returned⟩ := ih fun index data isData => by
        apply cut
        rw [List.getElem?_append_left (List.getElem?_eq_some_iff.mp isData).1]
        exact isData
      have length : pages.length = shown.length := by rw [← isShown, List.length_map]
      obtain ⟨page, isReturned, rfl⟩ :=
        cuts.offered _ _ (cut shown.length data List.getElem?_concat_length)
      refine ⟨pages ++ [page], by rw [List.map_append, isShown]; rfl, fun index other isOther => ?_⟩
      rcases Nat.lt_or_ge index pages.length with earlier | last
      · rw [List.getElem?_append_left earlier] at isOther
        exact returned index other isOther
      · obtain rfl : index = pages.length := by
          have few := (List.getElem?_eq_some_iff.mp isOther).1
          rw [List.length_append, List.length_singleton] at few
          omega
        rw [List.getElem?_concat_length] at isOther
        obtain rfl := Option.some.inj isOther
        rwa [length]

/-- As many pages as it takes to reach the total. -/
def pageCount (total take : Nat) : Nat :=
  max 1 ((total + take - 1) / take)

theorem le_pageCount_mul (total : Nat) (positive : 0 < take) :
    total ≤ pageCount total take * take := by
  have rest := Nat.lt_div_mul_add (a := total + take - 1) positive
  have enough : total ≤ (total + take - 1) / take * take := by
    omega
  exact enough.trans (Nat.mul_le_mul_right take (Nat.le_max_right _ _))

theorem lt_of_lt_pageCount {total index : Nat} (positive : 0 < take)
    (few : index + 1 < pageCount total take) : (index + 1) * take < total := by
  have fewer : index + 1 < (total + take - 1) / take := by
    rw [pageCount, lt_max_iff] at few
    omega
  have whole := (Nat.le_div_iff_mul_le positive).mp (Nat.succ_le_of_lt fewer)
  rw [Nat.succ_mul] at whole
  omega

/-- A client stops after as many pages. -/
theorem Pager.Cuts.fetched (cuts : pager.Cuts deployment world take column rows)
    (positive : 0 < take) {pages : List Page}
    (isCount : pages.length = pageCount rows.length take)
    (returned : ∀ index page, pages[index]? = some page →
      (pager.fetch (index * take)).Returns (service deployment) world page) :
    pager.Fetched deployment world take pages := by
  have totals : ∀ page ∈ pages, pager.total page = rows.length := by
    intro page member
    obtain ⟨index, isPage⟩ := List.mem_iff_getElem?.mp member
    exact (cuts.returned _ _ (returned index page isPage)).2
  have nonempty : pages ≠ [] := by
    apply List.ne_nil_of_length_pos
    rw [isCount]
    exact Nat.le_max_left _ _
  refine ⟨returned, fun index page isPage few => ?_, ?_⟩
  · rw [totals page (List.mem_of_getElem? isPage)]
    exact lt_of_lt_pageCount positive (isCount ▸ few)
  · refine ⟨pages.getLast nonempty, List.getLast?_eq_some_getLast nonempty, ?_⟩
    rw [totals _ (List.getLast_mem nonempty), isCount]
    exact le_pageCount_mul _ positive

theorem Pager.Cuts.exists_fetched (cuts : pager.Cuts deployment world take column rows)
    (positive : 0 < take) : ∃ pages, pager.Fetched deployment world take pages := by
  obtain ⟨listing, isListing⟩ := exists_listing column rows
  obtain ⟨shown, isCount, cut, -⟩ :=
    Tables.exists_pages (fun _ => listing) (fun _ => isListing) take (pageCount rows.length take)
  obtain ⟨pages, rfl, returned⟩ := cuts.exists_pages cut
  rw [List.length_map] at isCount
  exact ⟨pages, cuts.fetched positive isCount returned⟩

/-- The pages list every row once, in every order of the ties, if and only if no page ends
between two rows with the same value of the column. -/
theorem Pager.Cuts.listsOnce_iff (cuts : pager.Cuts deployment world take column rows)
    (distinct : rows.Nodup) (positive : 0 < take) :
    pager.ListsOnce deployment world take rows ↔
      ∀ index, ¬ Straddled column rows (index * take) := by
  constructor
  · rintro ⟨-, lists⟩
    refine (pages_perm_iff distinct positive (le_pageCount_mul _ positive)).mp
      fun shown isCount cut => ?_
    obtain ⟨pages, rfl, returned⟩ := cuts.exists_pages cut
    rw [List.length_map] at isCount
    rw [← List.flatMap_def]
    exact lists pages (cuts.fetched positive isCount returned)
  · intro separated
    refine ⟨cuts.exists_fetched positive, fun pages fetched => ?_⟩
    obtain ⟨last, isLast, reached⟩ := fetched.reached
    have cut : ∀ index data, (pages.map pager.data)[index]? = some data →
        PageOf column rows take (index * take) data := by
      intro index data isData
      rw [List.getElem?_map] at isData
      obtain ⟨page, isPage, rfl⟩ := Option.map_eq_some_iff.mp isData
      exact (cuts.returned _ _ (fetched.returned index page isPage)).1
    have enough : rows.length ≤ pages.length * take := by
      obtain ⟨index, isPage⟩ := List.mem_iff_getElem?.mp (List.mem_of_getLast? isLast)
      rwa [(cuts.returned _ _ (fetched.returned index last isPage)).2] at reached
    rw [List.flatMap_def]
    exact (pages_perm_iff distinct positive enough).mpr separated _ (List.length_map _) cut

/-- An endpoint whose pages are part of a listing and the number of its rows. -/
theorem Pager.Cuts.of_returns {build : Nat → List ρ → Page}
    (returns : ∀ skip page, (pager.fetch skip).Returns (service deployment) world page ↔
      ∃ data, PageOf column rows take skip data ∧ page = build skip data)
    (data_build : ∀ skip data, pager.data (build skip data) = data)
    (total_build : ∀ skip data, pager.total (build skip data) = rows.length) :
    pager.Cuts deployment world take column rows where
  returned skip page isReturned := by
    obtain ⟨data, isPage, rfl⟩ := (returns skip page).mp isReturned
    rw [data_build]
    exact ⟨isPage, total_build skip data⟩
  offered skip data isPage :=
    ⟨build skip data, (returns skip _).mpr ⟨data, isPage, rfl⟩, data_build skip data⟩

/-- What holds of the answer to a query for a page, in some order of the ties. -/
theorem exists_page_iff {id : ρ → String} (distinct : (rows.map id).Nodup) {skip : Nat}
    {holds : List ρ × Nat → Prop} :
    (∃ order answer, (arrangeBy? id column rows order).map
        (fun listed => ((listed.drop skip).take take, rows.length)) = some answer ∧
          holds answer) ↔
      ∃ data, PageOf column rows take skip data ∧ holds (data, rows.length) := by
  constructor
  · rintro ⟨order, answer, answered, isHeld⟩
    obtain ⟨listed, arranged, rfl⟩ := Option.map_eq_some_iff.mp answered
    obtain ⟨perm, sorted⟩ := (exists_arrangeBy?_iff distinct).mp ⟨order, arranged⟩
    exact ⟨_, ⟨listed, ⟨perm, sorted⟩, rfl⟩, isHeld⟩
  · rintro ⟨data, ⟨listed, isListing, rfl⟩, isHeld⟩
    obtain ⟨order, arranged⟩ :=
      (exists_arrangeBy?_iff distinct).mpr ⟨isListing.perm, isListing.sorted⟩
    exact ⟨order, _, by rw [arranged, Option.map_some], isHeld⟩

end Pagers

/-! ## The two listings -/

section Listings

variable {deployment : Deployment} {world : World} {consumer : GatewayConsumer} {take : Nat}

theorem returns_findAll {query : QueryPaymentIntentsDto} {page : PaymentIntentPage} :
    (PaymentIntents.findAll consumer query).Returns (service deployment) world page ↔
      ∃ data, PageOf PaymentIntent.recency
          (world.store.intentsMatching consumer.username query.status) query.take query.skip data ∧
        page = ⟨data, (world.store.intentsMatching consumer.username query.status).length,
          query.take, query.skip⟩ := by
  have distinct : ((world.store.intentsMatching consumer.username query.status).map
      PaymentIntent.id).Nodup :=
    world.store.intents.nodup_keys.sublist (List.filter_sublist.map _)
  refine returns_query.trans ((exists_page_iff distinct).trans ?_)
  exact exists_congr fun data => and_congr_right fun _ => returns_pure

theorem returns_getOwned {α : Type} {value : α} {endpointId : String} {next : Promise α}
    (own : world.store.ownsEndpoint consumer.username endpointId = true) :
    (Webhooks.getOwned consumer endpointId >>= fun _ => next).Returns (service deployment) world
        value ↔
      next.Returns (service deployment) world value := by
  obtain ⟨endpoint, stored, owned⟩ := (Option.any_eq_true _ _).mp own
  have isOwned : (world.store.find? .webhookEndpoint endpointId).filter
      (fun row => world.store.belongsTo row.consumerId consumer.username) = some endpoint := by
    rw [stored]
    exact Option.filter_some_pos owned
  rw [Webhooks.getOwned, sequence_assoc]
  refine returns_query.trans ⟨?_, fun continued => ⟨[], _, congrArg some isOwned, continued⟩⟩
  rintro ⟨order, answer, answered, continued⟩
  obtain rfl := (Option.some.inj answered).symm.trans isOwned
  exact continued

theorem returns_listDeliveries {endpointId : String} {query : QueryDeliveriesDto}
    {page : WebhookDeliveryPage}
    (own : world.store.ownsEndpoint consumer.username endpointId = true) :
    (Webhooks.listDeliveries consumer endpointId query).Returns (service deployment) world page ↔
      ∃ data, PageOf WebhookDelivery.recency
          (world.store.deliveriesMatching endpointId query.status) query.take query.skip data ∧
        page = ⟨data, (world.store.deliveriesMatching endpointId query.status).length,
          query.take, query.skip⟩ := by
  have distinct : ((world.store.deliveriesMatching endpointId query.status).map
      WebhookDelivery.id).Nodup :=
    (world.store.tables .webhookDelivery).nodup_keys.sublist (List.filter_sublist.map _)
  refine (returns_getOwned own).trans (returns_query.trans ?_)
  refine (exists_page_iff distinct).trans ?_
  exact exists_congr fun data => and_congr_right fun _ => returns_pure

theorem intentPager_cuts (status : Option PaymentIntentStatus) :
    (intentPager consumer status take).Cuts deployment world take PaymentIntent.recency
      (world.store.intentsMatching consumer.username status) :=
  .of_returns (fun _ _ => returns_findAll) (fun _ _ => rfl) (fun _ _ => rfl)

theorem deliveryPager_cuts {endpointId : String} (status : Option WebhookDeliveryStatus)
    (own : world.store.ownsEndpoint consumer.username endpointId = true) :
    (deliveryPager consumer endpointId status take).Cuts deployment world take
      WebhookDelivery.recency (world.store.deliveriesMatching endpointId status) :=
  .of_returns (fun _ _ => returns_listDeliveries own) (fun _ _ => rfl) (fun _ _ => rfl)

theorem nodup_intentsMatching (store : Store) (username : String)
    (status : Option PaymentIntentStatus) : (store.intentsMatching username status).Nodup :=
  (store.intents.nodup_keys.sublist (List.filter_sublist.map _)).of_map

theorem nodup_deliveriesMatching (store : Store) (endpointId : String)
    (status : Option WebhookDeliveryStatus) : (store.deliveriesMatching endpointId status).Nodup :=
  ((store.tables .webhookDelivery).nodup_keys.sublist (List.filter_sublist.map _)).of_map

/-- The pages list every matching row once if and only if no page ends between two matching
rows that were created in the same millisecond. -/
theorem pages_list_once_iff (deployment : Deployment) (world : World) (consumer : GatewayConsumer)
    {take : Nat} (positive : 0 < take) :
    (∀ status, (intentPager consumer status take).ListsOnce deployment world take
        (world.store.intentsMatching consumer.username status) ↔
      ∀ index, ¬ Straddled PaymentIntent.recency
        (world.store.intentsMatching consumer.username status) (index * take)) ∧
    ∀ endpointId, world.store.ownsEndpoint consumer.username endpointId = true →
      ∀ status, (deliveryPager consumer endpointId status take).ListsOnce deployment world take
          (world.store.deliveriesMatching endpointId status) ↔
        ∀ index, ¬ Straddled WebhookDelivery.recency
          (world.store.deliveriesMatching endpointId status) (index * take) := by
  refine ⟨fun status => ?_, fun endpointId own status => ?_⟩
  · exact (intentPager_cuts status).listsOnce_iff (nodup_intentsMatching _ _ _) positive
  · exact (deliveryPager_cuts status own).listsOnce_iff (nodup_deliveriesMatching _ _ _)
      positive

end Listings

/-! ## Two intents of one millisecond -/

/-- Two intents are created at once, and both are announced to an endpoint. -/
def twins : Config (service Sample.deployment) :=
  after (fun _ _ => true)
    (Sample.delivery ++ Sample.create 4 "alice" "8" "c'" "pj" ++ Sample.fanOut 5 "ep" "e")
    Sample.start

theorem pages_list_once_iff_of_twins :
    (intentPager (Sample.caller "alice") none 2).ListsOnce Sample.deployment twins.state 2
        ((World.store twins.state).intentsMatching "alice" none) ∧
      (deliveryPager (Sample.caller "alice") "ep" none 2).ListsOnce Sample.deployment twins.state 2
        ((World.store twins.state).deliveriesMatching "ep" none) := by
  obtain ⟨intents, deliveries⟩ := pages_list_once_iff Sample.deployment twins.state
    (Sample.caller "alice") (Nat.succ_pos 1)
  -- both fit on the first page
  have separated : ∀ {ρ : Type} {column : ρ → Int} {rows : List ρ}, rows.length = 2 →
      ∀ index, ¬ Straddled column rows (index * 2) := by
    rintro ρ column rows isTwo index ⟨value, few, many⟩
    have inside := many.trans_le List.countP_le_length
    omega
  have twoIntents : ((World.store twins.state).intentsMatching "alice" none).length = 2 := by
    decide +kernel
  have twoDeliveries : ((World.store twins.state).deliveriesMatching "ep" none).length = 2 := by
    decide +kernel
  exact ⟨(intents none).mpr (separated twoIntents),
    (deliveries "ep" (by decide +kernel) none).mpr (separated twoDeliveries)⟩

/-- With a page for each intent, the same intent may be shown on both pages. -/
theorem not_pages_list_once :
    ¬ ∀ (deployment : Deployment) (state : World) (config : Config (service deployment)),
      state.store = .empty → Run (fun _ _ => True) (.initial state) config →
      ∀ (consumer : GatewayConsumer) (take : Nat), 0 < take → take ≤ 100 →
        (∀ status, (intentPager consumer status take).ListsOnce deployment config.state take
          ((World.store config.state).intentsMatching consumer.username status)) ∧
        ∀ endpointId,
          (World.store config.state).ownsEndpoint consumer.username endpointId = true →
          ∀ status,
            (deliveryPager consumer endpointId status take).ListsOnce deployment config.state take
              ((World.store config.state).deliveriesMatching endpointId status) := by
  intro lists
  have run : Run (fun _ _ => True) Sample.start twins :=
    run_after (fun _ _ _ => trivial) _ _
  have first : ((PaymentIntents.findAll (Sample.caller "alice") ⟨none, 1, 0⟩).returned?
      (service Sample.deployment) [.arrange ["pi", "pj"]] twins.state).map
        (fun page => (page.data.map PaymentIntent.id, page.total)) = some (["pi"], 2) := by
    decide +kernel
  have second : ((PaymentIntents.findAll (Sample.caller "alice") ⟨none, 1, 1⟩).returned?
      (service Sample.deployment) [.arrange ["pj", "pi"]] twins.state).map
        (fun page => (page.data.map PaymentIntent.id, page.total)) = some (["pi"], 2) := by
    decide +kernel
  obtain ⟨page, returned, isPage⟩ := Option.map_eq_some_iff.mp first
  obtain ⟨page', returned', isPage'⟩ := Option.map_eq_some_iff.mp second
  obtain ⟨ids, total⟩ := Prod.mk.inj isPage
  obtain ⟨ids', total'⟩ := Prod.mk.inj isPage'
  have fetched : (intentPager (Sample.caller "alice") none 1).Fetched Sample.deployment
      twins.state 1 [page, page'] := by
    refine ⟨fun index other isOther => ?_, fun index other isOther few => ?_, page', rfl, ?_⟩
    · match index, isOther with
      | 0, rfl => exact returns_of_returned? returned
      | 1, rfl => exact returns_of_returned? returned'
    · obtain rfl : index = 0 := Nat.lt_one_iff.mp (Nat.lt_of_succ_lt_succ few)
      obtain rfl := Option.some.inj isOther
      have isTotal : (intentPager (Sample.caller "alice") none 1).total page = 2 := total
      rw [isTotal]
      decide
    · exact total'.le
  have perm := ((lists Sample.deployment Sample.world twins rfl run (Sample.caller "alice") 1
    (by decide) (by decide)).1 none).2 _ fetched
  have shown : (([page, page'].flatMap PaymentIntentPage.data).map PaymentIntent.id).Nodup :=
    (perm.map PaymentIntent.id).nodup_iff.mpr (by decide +kernel)
  simp [ids, ids'] at shown

end CosmosPay
