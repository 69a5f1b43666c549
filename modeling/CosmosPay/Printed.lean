import CosmosPay.Figures
import CosmosPay.Payable
import CosmosPay.Text.Notation

/-!
# The amounts that the aggregates print

A sum of stored amounts is a whole number of stroops.  `Number.prototype.toString` prints it
as a plain decimal, unless it lies between one and nine stroops, or is too large: then it is
printed with an exponent, and is no amount in the sense of the request bodies.
-/

namespace CosmosPay

open Awaiting Program Tables Analytics
open Text (Numbers numberText isoDate)

/-! ## Counts of stroops -/

/-- The stroops of an intent; an intent without an amount has none. -/
def stroopsOf (intent : PaymentIntent) : Nat :=
  (intent.amount.bind stroops).getD 0

def totalStroops (intents : List PaymentIntent) : Nat :=
  (intents.map stroopsOf).sum

/-- A count of stroops that is printed without an exponent. -/
def Legible (count : Nat) : Prop :=
  count = 0 ∨ 10 ≤ count ∧ count < 10 ^ 28

/-- The amount of an intent, if it has one, is one that a request can give. -/
def PaymentIntent.Priced (intent : PaymentIntent) : Prop :=
  ∀ amount, intent.amount = some amount → IsAmount amount

section Values

variable {count : Nat} {intent : PaymentIntent} {intents : List PaymentIntent}

/-- A count of stroops as an exact number. -/
def ofStroops (count : Nat) : Numbers.exact.Value :=
  Numbers.ofRat (count / 10 ^ 7 : Rat)

theorem ofStroops_zero : Numbers.exact.ofNat 0 = ofStroops 0 := by
  simp [Numbers.exact_ofNat, ofStroops]

theorem add_ofStroops (first second : Nat) :
    Numbers.exact.add (ofStroops first) (ofStroops second) = ofStroops (first + second) := by
  rw [ofStroops, ofStroops, Numbers.exact_add, ofStroops, Nat.cast_add, add_div]

theorem money_ofStroops (count : Nat) : money .exact (ofStroops count) = numberText 7 count := by
  have whole : (count / 10 ^ 7 : Rat) * 10 ^ 7 = count := by
    field_simp
  have natural : (count : Rat) = ((count : Int) : Rat) := by
    push_cast
    rfl
  have floor : ((count : Rat) + 1 / 2).floor = count := by
    apply le_antisymm
    · refine Int.lt_add_one_iff.mp (Rat.floor_lt_iff.mpr ?_)
      push_cast
      linarith
    · refine Rat.le_floor_iff.mpr ?_
      push_cast
      linarith
  have rounded : Numbers.exact.toFixed (ofStroops count) = ofStroops count := by
    change some ((((count / 10 ^ 7 : Rat) * 10 ^ 7 + 1 / 2).floor : Rat) / 10 ^ 7) = _
    rw [whole, floor]
    rfl
  rw [money, rounded]
  change numberText 7 ((count / 10 ^ 7 : Rat) * 10 ^ 7).floor.toNat = _
  rw [whole, natural, Rat.floor_intCast, Int.toNat_natCast]

theorem num_of_decimalValue {text : String} {value : Rat}
    (isValue : Text.decimalValue text = some value) :
    num .exact (some text) = Numbers.ofRat value := by
  have nonempty : text ≠ "" := by
    rintro rfl
    have none : Text.decimalValue "" = none := by decide
    rw [none] at isValue
    cases isValue
  have given : truthy (some text) = some text := truthy_eq_some.mpr ⟨rfl, nonempty⟩
  rw [num, given]
  dsimp only
  rw [Numbers.exact_isFinite, isValue, Option.isSome_some, if_pos rfl]
  exact Numbers.exact_number isValue

/-- Whichever way a sum is printed, the next step reads it back. -/
theorem num_numberText (count : Nat) :
    num .exact (some (numberText 7 count)) = ofStroops count :=
  num_of_decimalValue (Text.decimalValue_numberText count)

theorem decimalValue_of_priced (priced : intent.Priced) {amount : String}
    (given : intent.amount = some amount) :
    Text.decimalValue amount = some (stroopsOf intent / 10 ^ 7 : Rat) := by
  obtain ⟨count, counted⟩ := Option.isSome_iff_exists.mp (isAmount_iff.mp (priced amount given))
  have isCount : stroopsOf intent = count := by
    rw [stroopsOf, given, Option.bind_some, counted, Option.getD_some]
  rw [isCount]
  exact Text.decimalValue_of_units counted

theorem num_of_priced (priced : intent.Priced) :
    num .exact intent.amount = ofStroops (stroopsOf intent) := by
  cases given : intent.amount with
  | none =>
      have nothing : stroopsOf intent = 0 := by rw [stroopsOf, given]; rfl
      rw [nothing, ← ofStroops_zero]
      rfl
  | some amount => exact num_of_decimalValue (decimalValue_of_priced priced given)

/-- The customers' listing reads amounts in a way of its own. -/
theorem amountOf_of_priced (priced : intent.Priced) :
    Customers.amountOf .exact intent.amount = ofStroops (stroopsOf intent) := by
  cases given : intent.amount with
  | none =>
      have nothing : stroopsOf intent = 0 := by rw [stroopsOf, given]; rfl
      rw [nothing, ← ofStroops_zero]
      rfl
  | some amount =>
      have isValue := decimalValue_of_priced priced given
      rw [Customers.amountOf, Numbers.exact_isNaN, isValue, Option.isNone_some,
        if_neg Bool.false_ne_true]
      exact Numbers.exact_number isValue

/-- A sum of amounts, however they are read. -/
theorem foldl_of_priced {read : PaymentIntent → Numbers.exact.Value}
    (reads : ∀ intent ∈ intents, read intent = ofStroops (stroopsOf intent)) (start : Nat) :
    intents.foldl (fun total intent => Numbers.exact.add total (read intent)) (ofStroops start) =
      ofStroops (start + totalStroops intents) := by
  induction intents generalizing start with
  | nil => simp [totalStroops]
  | cons intent intents ih =>
      rw [List.foldl_cons, reads intent List.mem_cons_self, add_ofStroops,
        ih fun other member => reads other (List.mem_cons_of_mem intent member)]
      simp [totalStroops, Nat.add_assoc]

theorem sumOf_of_priced (priced : ∀ intent ∈ intents, intent.Priced) :
    sumOf .exact intents = ofStroops (totalStroops intents) := by
  have folded := foldl_of_priced (fun intent member => num_of_priced (priced intent member)) 0
  rwa [Nat.zero_add, ← ofStroops_zero] at folded

/-- A printed sum is a plain decimal that denotes it, if it is legible. -/
theorem stroops_numberText_iff (count : Nat) :
    stroops (numberText 7 count) = some count ↔ Legible count :=
  Text.units_numberText_eq_some_iff count

end Values

/-! ## The series -/

/-- The entry of the series that collects the intent. -/
def dayIndex (now : Nat) (intent : PaymentIntent) : Option Nat :=
  (indexByDate (seriesDays now)).get? (isoDate intent.createdAt)

/-- The succeeded intents that an entry of the series collects. -/
def settledOn (now : Nat) (intents : List PaymentIntent) (index : Nat) : List PaymentIntent :=
  (succeeded intents).filter fun intent => dayIndex now intent = some index

section Series

variable {numbers : Numbers} {now : Nat} {intents : List PaymentIntent}

/-- Each entry of the series is the fold over the intents that it collects. -/
theorem getElem?_addToSeries (days : OrderedMap String Nat) (start : List SeriesDay)
    (index : Nat) :
    (intents.foldl (addToSeries numbers days) start)[index]? = start[index]?.map fun day =>
      (intents.filter fun intent => days.get? (isoDate intent.createdAt) = some index).foldl
        (fun day intent => addToDay numbers intent day) day := by
  induction intents generalizing start with
  | nil => simp
  | cons intent intents ih =>
      rw [List.foldl_cons, ih, List.filter_cons, addToSeries]
      cases collected : days.get? (isoDate intent.createdAt) with
      | none => simp
      | some other =>
          by_cases same : other = index
          · subst same
            simp [Function.comp_def]
          · simp [same]

/-- The printed volume of a day is the sum so far, in stroops. -/
theorem volume_foldl_addToDay (priced : ∀ intent ∈ intents, intent.Priced) {day : SeriesDay}
    {count : Nat} (printed : day.volume = numberText 7 count) :
    (intents.foldl (fun day intent => addToDay .exact intent day) day).volume =
      numberText 7 (count + totalStroops (succeeded intents)) := by
  induction intents generalizing day count with
  | nil => simpa [totalStroops, succeeded] using printed
  | cons intent intents ih =>
      have rest := fun other member => priced other (List.mem_cons_of_mem intent member)
      rw [List.foldl_cons]
      by_cases settled : intent.status = .succeeded
      · have next : (addToDay .exact intent day).volume =
            numberText 7 (count + stroopsOf intent) := by
          rw [addToDay, if_pos settled, printed, num_numberText,
            num_of_priced (priced intent List.mem_cons_self), add_ofStroops, money_ofStroops]
        rw [ih rest next]
        simp [succeeded, settled, totalStroops, Nat.add_assoc]
      · have next : (addToDay .exact intent day).volume = numberText 7 count := by
          rw [addToDay, if_neg settled, printed]
        rw [ih rest next]
        simp [succeeded, settled]

theorem volume_of_series (priced : ∀ intent ∈ intents, intent.Priced) {index : Nat}
    {day : SeriesDay} (listed : (series .exact now intents)[index]? = some day) :
    day.volume = numberText 7 (totalStroops (settledOn now intents index)) := by
  rw [series, getElem?_addToSeries] at listed
  obtain ⟨start, isStart, rfl⟩ := Option.map_eq_some_iff.mp listed
  have isSettled : settledOn now intents index = succeeded (intents.filter fun intent =>
      dayIndex now intent = some index) := by
    rw [settledOn, succeeded, succeeded, List.filter_filter, List.filter_filter]
    simp only [Bool.and_comm]
  have zero : start.volume = numberText 7 0 := by
    rw [seriesDays, List.getElem?_map] at isStart
    obtain ⟨index', -, rfl⟩ := Option.map_eq_some_iff.mp isStart
    rfl
  have collects : ∀ intent ∈ intents.filter fun intent => dayIndex now intent = some index,
      intent.Priced := fun intent member => priced intent (List.mem_of_mem_filter member)
  rw [isSettled, ← Nat.zero_add (totalStroops _)]
  exact volume_foldl_addToDay collects zero

end Series

/-! ## All figures -/

/-- The amounts of the summary are plain decimals that denote the exact sums. -/
def Summary.Plain (summary : Summary) (now : Nat) (table : List PaymentIntent) : Prop :=
  (∀ entry ∈ summary.volume,
    stroops entry.amount = some (totalStroops (settledOf table entry.asset))) ∧
  ∀ index day, summary.series[index]? = some day →
    stroops day.volume = some (totalStroops (settledOn now table index))

def BalancePage.Plain (page : BalancePage) (table : List PaymentIntent) : Prop :=
  ∀ balance ∈ page.data,
    stroops balance.amount = some (totalStroops (settledOf table balance.asset)) ∧
    stroops balance.pending = some (totalStroops (awaitedOf table balance.asset))

def CustomerPage.Plain (page : CustomerPage) (table : List PaymentIntent) : Prop :=
  ∀ row ∈ page.data,
    stroops row.total = some (totalStroops (succeeded (paidBy table row.customer)))

section Plain

variable {table intents : List PaymentIntent}

theorem totalStroops_perm (perm : intents.Perm table) :
    totalStroops intents = totalStroops table :=
  (perm.map stroopsOf).sum_eq

theorem legible_nil {others : List PaymentIntent} (none : others = []) :
    Legible (totalStroops others) :=
  .inl (by rw [none]; rfl)

variable (listed : intents.Perm table) (priced : ∀ intent ∈ table, intent.Priced)

include listed priced

theorem money_filter (keep : PaymentIntent → Bool) :
    money .exact (sumOf .exact (intents.filter keep)) =
      numberText 7 (totalStroops (table.filter keep)) := by
  have kept : ∀ intent ∈ table.filter keep, intent.Priced :=
    fun intent member => priced intent (List.mem_of_mem_filter member)
  rw [sumOf_perm (listed.filter keep), sumOf_of_priced kept, money_ofStroops]

theorem money_settled (label : String) : money .exact (sumOf .exact (settledOf intents label)) =
    numberText 7 (totalStroops (settledOf table label)) :=
  money_filter listed priced _

theorem money_awaited (label : String) : money .exact (sumOf .exact (awaitedOf intents label)) =
    numberText 7 (totalStroops (awaitedOf table label)) :=
  money_filter listed priced _

theorem plain_overview_iff {now : Nat} {webhooks : WebhookHealth} :
    (overview .exact now webhooks intents).Plain now table ↔
      (∀ label, Legible (totalStroops (settledOf table label))) ∧
        ∀ index, index < 30 → Legible (totalStroops (settledOn now table index)) := by
  have daily : ∀ index day, (series .exact now intents)[index]? = some day →
      day.volume = numberText 7 (totalStroops (settledOn now table index)) := by
    intro index day isDay
    have perm : (settledOn now intents index).Perm (settledOn now table index) :=
      (listed.filter _).filter _
    rw [volume_of_series (fun intent member => priced intent (listed.mem_iff.mp member)) isDay,
      totalStroops_perm perm]
  constructor
  · rintro ⟨volumes, days⟩
    refine ⟨fun label => ?_, fun index few => ?_⟩
    · by_cases none : settledOf table label = []
      · exact legible_nil none
      have present : settledOf intents label ≠ [] := by
        rintro empty
        exact none (List.perm_nil.mp (empty ▸ (listed.filter _).symm))
      obtain ⟨entry, member, rfl⟩ := exists_volume present
      have plain := volumes entry member
      rw [(mem_volume.mp member).2.1, money_settled listed priced] at plain
      exact (stroops_numberText_iff _).mp plain
    · have isDay : ∃ day, (series .exact now intents)[index]? = some day := by
        have start : index < (seriesDays now).length := by simpa [seriesDays] using few
        rw [series, getElem?_addToSeries, List.getElem?_eq_getElem start]
        exact ⟨_, rfl⟩
      obtain ⟨day, isDay⟩ := isDay
      have plain := days index day isDay
      rw [daily index day isDay] at plain
      exact (stroops_numberText_iff _).mp plain
  · rintro ⟨volumes, days⟩
    refine ⟨fun entry member => ?_, fun index day isDay => ?_⟩
    · rw [(mem_volume.mp member).2.1, money_settled listed priced]
      exact (stroops_numberText_iff _).mpr (volumes entry.asset)
    · rw [daily index day isDay]
      refine (stroops_numberText_iff _).mpr (days index ?_)
      have start : (seriesDays now)[index]?.isSome = true := by
        have some : (series .exact now intents)[index]?.isSome = true :=
          Option.isSome_iff_exists.mpr ⟨day, isDay⟩
        rwa [series, getElem?_addToSeries, Option.isSome_map] at some
      simpa [seriesDays] using start

theorem plain_balances_iff {total : Nat} :
    BalancePage.Plain ⟨balanceData .exact intents, total⟩ table ↔
      ∀ label, Legible (totalStroops (settledOf table label)) ∧
        Legible (totalStroops (awaitedOf table label)) := by
  constructor
  · intro plain label
    by_cases absent : ∃ intent ∈ intents, assetLabel intent.asset = label
    · obtain ⟨intent, stored, rfl⟩ := absent
      obtain ⟨balance, member, same⟩ := exists_balance stored
      obtain ⟨-, isAmount, isPending, -⟩ := mem_balanceData.mp member
      obtain ⟨settled, awaited⟩ := plain balance member
      rw [isAmount, money_settled listed priced] at settled
      rw [isPending, money_awaited listed priced] at awaited
      rw [← same]
      exact ⟨(stroops_numberText_iff _).mp settled, (stroops_numberText_iff _).mp awaited⟩
    · have none : ∀ intent ∈ table, assetLabel intent.asset ≠ label := fun intent stored same =>
        absent ⟨intent, listed.mem_iff.mpr stored, same⟩
      refine ⟨legible_nil ?_, legible_nil ?_⟩
      · exact List.filter_eq_nil_iff.mpr fun intent stored => by simp [none intent stored]
      · exact List.filter_eq_nil_iff.mpr fun intent stored => by simp [none intent stored]
  · intro legible balance member
    obtain ⟨-, isAmount, isPending, -⟩ := mem_balanceData.mp member
    rw [isAmount, isPending, money_settled listed priced, money_awaited listed priced]
    exact ⟨(stroops_numberText_iff _).mpr (legible balance.asset).1,
      (stroops_numberText_iff _).mpr (legible balance.asset).2⟩

theorem total_customerRow (customer : Customer) :
    (Customers.customerRow .exact intents customer).total =
      numberText 7 (totalStroops (succeeded (paidBy table customer))) := by
  have perm : (succeeded (paidBy intents customer)).Perm (succeeded (paidBy table customer)) :=
    (paidBy_perm listed customer).filter _
  have stored : ∀ intent ∈ paidBy intents customer, intent ∈ intents := by
    intro intent member
    unfold paidBy at member
    split at member
    · cases member
    · exact List.mem_of_mem_filter member
  have reads : ∀ intent ∈ succeeded (paidBy intents customer),
      Customers.amountOf .exact intent.amount = ofStroops (stroopsOf intent) :=
    fun intent member => amountOf_of_priced
      (priced intent (listed.mem_iff.mp (stored intent (List.mem_of_mem_filter member))))
  have isSum := foldl_of_priced reads 0
  rw [Nat.zero_add, ← ofStroops_zero, totalStroops_perm perm] at isSum
  have printed := money_ofStroops (totalStroops (succeeded (paidBy table customer)))
  rw [Customers.customerRow, statsOf_eq]
  dsimp only
  rw [isSum]
  exact printed

theorem plain_customers_iff {customers : List Customer} {total : Nat} :
    CustomerPage.Plain ⟨customers.map (Customers.customerRow .exact intents), total⟩ table ↔
      ∀ customer ∈ customers,
        Legible (totalStroops (succeeded (paidBy table customer))) := by
  constructor
  · intro plain customer member
    have shown := plain _ (List.mem_map_of_mem member)
    rw [total_customerRow listed priced] at shown
    exact (stroops_numberText_iff _).mp shown
  · rintro legible row member
    obtain ⟨customer, isCustomer, rfl⟩ := List.mem_map.mp member
    rw [total_customerRow listed priced]
    exact (stroops_numberText_iff _).mpr (legible customer isCustomer)

end Plain

/-- The exact sums that are reported: of each label, of each day of the series, and of each
customer.  None lies between one and nine stroops, or is too large. -/
structure LegibleFigures (now : Nat) (table sourced : List PaymentIntent)
    (customers : List Customer) : Prop where
  settled : ∀ label, Legible (totalStroops (settledOf table label))
  awaited : ∀ label, Legible (totalStroops (awaitedOf table label))
  daily : ∀ index, index < 30 → Legible (totalStroops (settledOn now table index))
  paid : ∀ customer ∈ customers, Legible (totalStroops (succeeded (paidBy sourced customer)))

section Returned

variable {deployment : Deployment} {world : World} {consumer : GatewayConsumer}

/-- Every amount that the summary, the balances and the customers' listing can return is a
plain decimal that denotes the exact sum. -/
def PlainFigures (deployment : Deployment) (world : World) (consumer : GatewayConsumer) : Prop :=
  let table := world.store.intentsOf consumer.username (Analytics.network consumer)
  (∀ summary, (Analytics.summary consumer).Returns (service deployment) world summary →
    summary.Plain world.clock table) ∧
  (∀ page, (Analytics.balances consumer).Returns (service deployment) world page →
    page.Plain table) ∧
  ∀ page, (Customers.findAll consumer).Returns (service deployment) world page →
    page.Plain (world.store.sourcedIntentsOf consumer.username)

/-- The figures of a table of stored amounts are plain decimals if and only if every exact sum
that is reported is zero, or at least ten stroops and below `10 ^ 28`. -/
theorem figures_plain_iff (parented : world.store.Parented)
    (priced : ∀ row ∈ world.store.intents.rows, row.Priced) :
    PlainFigures deployment world consumer ↔
      LegibleFigures world.clock
        (world.store.intentsOf consumer.username (Analytics.network consumer))
        (world.store.sourcedIntentsOf consumer.username)
        (world.store.customersOf consumer.username) := by
  have tablePriced : ∀ intent ∈
      world.store.intentsOf consumer.username (Analytics.network consumer), intent.Priced :=
    fun intent member => priced intent (List.mem_of_mem_filter member)
  have sourcedPriced : ∀ intent ∈ world.store.sourcedIntentsOf consumer.username,
      intent.Priced := fun intent member => priced intent (List.mem_of_mem_filter member)
  constructor
  · rintro ⟨summaries, balances, pages⟩
    obtain ⟨intents, listed⟩ := exists_listedBy (fun row : PaymentIntent => -row.createdAt)
      (world.store.intentsOf consumer.username (Analytics.network consumer))
    obtain ⟨customers, listedCustomers⟩ := exists_listedBy
      (fun row : Customer => -row.createdAt) (world.store.customersOf consumer.username)
    obtain ⟨settled, daily⟩ := (plain_overview_iff listed.1 tablePriced).mp
      (summaries _ ((returns_summary parented).mpr ⟨intents, listed, rfl⟩))
    have labels := (plain_balances_iff (List.Perm.refl _) tablePriced).mp
      (balances _ ((returns_balances parented).mpr ⟨_, List.Perm.refl _, rfl⟩))
    have paid := (plain_customers_iff (List.Perm.refl _) sourcedPriced).mp
      (pages _ ((returns_customers parented).mpr
        ⟨customers, _, listedCustomers, List.Perm.refl _, rfl⟩))
    exact ⟨settled, fun label => (labels label).2, daily, fun customer member =>
      paid customer (listedCustomers.1.mem_iff.mpr member)⟩
  · rintro ⟨settled, awaited, daily, paid⟩
    refine ⟨fun summary returned => ?_, fun page returned => ?_, fun page returned => ?_⟩
    · obtain ⟨intents, listed, rfl⟩ := (returns_summary parented).mp returned
      exact (plain_overview_iff listed.1 tablePriced).mpr ⟨settled, daily⟩
    · obtain ⟨intents, listed, rfl⟩ := (returns_balances parented).mp returned
      exact (plain_balances_iff listed tablePriced).mpr
        fun label => ⟨settled label, awaited label⟩
    · obtain ⟨customers, intents, listedCustomers, listed, rfl⟩ :=
        (returns_customers parented).mp returned
      exact (plain_customers_iff listed sourcedPriced).mpr fun customer member =>
        paid customer (listedCustomers.1.mem_iff.mp member)

end Returned

/-- A create request stores the amount that the validation pipe has admitted. -/
theorem Composes.priced {deployment : Deployment} {request : Request} {new : NewPaymentIntent}
    (composes : Composes deployment request new)
    (admitted : Request.Admitted deployment.libraries request) :
    ∀ amount, new.amount = some amount → IsAmount amount := by
  intro amount given
  cases composes with
  | tx consumer dto owner asset memo xdr expiresAt envelope resolved isAmount built =>
      obtain rfl : dto.amount = amount := Option.some.inj given
      exact admitted.2.2.1
  | pay consumer dto owner asset memo expiresAt resolved =>
      have isField : dto.amount.toOption = some amount := given
      have checked := admitted.2.1
      cases isGiven : dto.amount with
      | value text =>
          rw [isGiven] at isField checked
          obtain rfl : text = amount := Option.some.inj isField
          exact checked
      | _ =>
          rw [isGiven] at isField
          cases isField

/-- Every amount in the table has the pattern of the request bodies. -/
theorem priced_of_stored {deployment : Deployment} {state : World}
    {config : Config (service deployment)} (start : state.store = .empty)
    (run : AdmittedRun (Config.initial state) config) :
    ∀ row ∈ (Store.intents (World.store config.state)).rows, row.Priced := by
  intro row stored amount given
  have found : (World.store config.state).find? .paymentIntent row.id = some row :=
    Table.find?_key stored
  obtain ⟨maker, inserted⟩ := inserted_of_stored run (by simp [start, Store.empty]) found
  obtain ⟨request, code, new, id, createdAt, lookup, composes, sameTerms⟩ := inserted.composed run
  have amounts : new.amount = row.amount := congrArg PaymentIntent.amount sameTerms
  exact composes.priced (run.admitted lookup) amount (amounts.trans given)

theorem priced_of_all {rows : List PaymentIntent}
    (all : (rows.all fun row => row.amount.all fun amount => (stroops amount).isSome) = true) :
    ∀ row ∈ rows, row.Priced := by
  intro row member amount given
  have shown := List.all_eq_true.mp all row member
  rw [given] at shown
  exact isAmount_iff.mpr shown

theorem figures_plain_iff_of_paidPayIntent :
    let store := World.store paidPayIntent.state
    PlainFigures Sample.deployment paidPayIntent.state (Sample.caller "alice") ↔
      LegibleFigures (World.clock paidPayIntent.state) (store.intentsOf "alice" .testnet)
        (store.sourcedIntentsOf "alice") (store.customersOf "alice") := by
  have run : Run (fun _ _ => True) Sample.start paidPayIntent :=
    run_after (fun _ _ _ => trivial) _ _
  have priced : ((World.store paidPayIntent.state).intents.rows.all fun row =>
      row.amount.all fun amount => (stroops amount).isSome) = true := by
    decide +kernel
  exact figures_plain_iff (parented_of_run run rfl) (priced_of_all priced)

/-- An intent of one stroop awaits its payment, and the pending balance is `1e-7`. -/
theorem not_figures_plain :
    ¬ ∀ (deployment : Deployment) (world : World) (consumer : GatewayConsumer),
      world.store.Parented → (∀ row ∈ world.store.intents.rows, row.Priced) →
      (∀ label, totalStroops (world.store.intents.rows.filter fun row =>
        assetLabel row.asset = label) < 2 ^ 53) →
      PlainFigures deployment world consumer := by
  intro plain
  have priced : ((World.store (askedFor "0.0000001").state).intents.rows.all fun row =>
      row.amount.all fun amount => (stroops amount).isSome) = true := by
    decide +kernel
  have small : totalStroops (World.store (askedFor "0.0000001").state).intents.rows < 2 ^ 53 := by
    decide +kernel
  have shown : ((Analytics.balances (Sample.caller "alice")).returned?
      (service Sample.checkingDeployment) [.draw "x", .arrange ["pi"]]
      (askedFor "0.0000001").state).map BalancePage.data = some [⟨"XLM", "0", "1e-7", 0⟩] := by
    decide +kernel
  obtain ⟨page, returned, isData⟩ := Option.map_eq_some_iff.mp shown
  obtain ⟨-, balances, -⟩ := plain Sample.checkingDeployment (askedFor "0.0000001").state
    (Sample.caller "alice") (parented_of_run (run_askedFor "0.0000001") rfl)
    (priced_of_all priced) fun label => lt_of_le_of_lt
      (List.Sublist.sum_le_sum (List.filter_sublist.map stroopsOf) fun _ _ => Nat.zero_le _) small
  obtain ⟨-, pending⟩ := balances page (returns_of_returned? returned) ⟨"XLM", "0", "1e-7", 0⟩
    (by rw [isData]; exact List.mem_cons_self)
  have exponent : stroops "1e-7" = none := by decide
  rw [exponent] at pending
  cases pending

end CosmosPay
