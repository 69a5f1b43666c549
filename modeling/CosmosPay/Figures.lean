import CosmosPay.Reports
import CosmosPay.WellFormed

/-!
# What the figures of an asset are sums of

The overview and the balances collect the intents of an asset label in folds of their own:
the one the succeeded intents, in the order of their listing, the other all intents, and
sorts its entries at the end.  Entry by entry they come to the same sums.
-/

namespace CosmosPay

open Awaiting Program Tables Analytics
open Text (Numbers)

/-! ## Sums -/

/-- The succeeded intents of a label. -/
def settledOf (intents : List PaymentIntent) (label : String) : List PaymentIntent :=
  intents.filter fun intent => intent.status = .succeeded ∧ assetLabel intent.asset = label

/-- The intents of a label that await their payment. -/
def awaitedOf (intents : List PaymentIntent) (label : String) : List PaymentIntent :=
  intents.filter fun intent =>
    (intent.status = .pending ∨ intent.status = .submitted) ∧ assetLabel intent.asset = label

def sumOf (numbers : Numbers) (intents : List PaymentIntent) : numbers.Value :=
  intents.foldl (fun total intent => numbers.add total (num numbers intent.amount))
    (numbers.ofNat 0)

section Entries

variable {numbers : Numbers} {intents : List PaymentIntent}

theorem filter_succeeded (label : String) :
    ((succeeded intents).filter fun intent => assetLabel intent.asset = label) =
      settledOf intents label := by
  rw [succeeded, List.filter_filter, settledOf]
  refine List.filter_congr fun intent _ => ?_
  rw [Bool.decide_and, Bool.and_comm]

/-- The fold of the overview. -/
theorem foldl_volume (amount : numbers.Value) (count : Nat) :
    intents.foldl (fun (total : numbers.Value × Nat) intent =>
        (numbers.add total.1 (num numbers intent.amount), total.2 + 1)) (amount, count) =
      (intents.foldl (fun total intent => numbers.add total (num numbers intent.amount)) amount,
        count + intents.length) := by
  induction intents generalizing amount count with
  | nil => rfl
  | cons intent intents ih =>
      rw [List.foldl_cons, ih, List.foldl_cons, List.length_cons]
      congr 1
      omega

theorem mem_volume {entry : AssetVolume} :
    entry ∈ volume numbers intents ↔ settledOf intents entry.asset ≠ [] ∧
      entry.amount = money numbers (sumOf numbers (settledOf intents entry.asset)) ∧
      entry.count = (settledOf intents entry.asset).length := by
  have listed : ∀ label, (∃ intent ∈ succeeded intents, assetLabel intent.asset = label) ↔
      settledOf intents label ≠ [] := by
    intro label
    rw [← filter_succeeded, Ne, List.filter_eq_nil_iff]
    simp
  have folded : ∀ label, (settledOf intents label).foldl
      (fun (total : numbers.Value × Nat) intent =>
        (numbers.add total.1 (num numbers intent.amount), total.2 + 1)) (numbers.ofNat 0, 0) =
      (sumOf numbers (settledOf intents label), (settledOf intents label).length) := by
    intro label
    rw [foldl_volume, Nat.zero_add, sumOf]
  constructor
  · intro member
    obtain ⟨⟨label, amount, count⟩, isEntry, rfl⟩ := List.mem_map.mp member
    obtain ⟨present, collected⟩ := mem_tally.mp isEntry
    rw [filter_succeeded] at collected
    obtain ⟨rfl, rfl⟩ := Prod.mk.inj ((folded label).symm.trans collected)
    exact ⟨(listed label).mp present, rfl, rfl⟩
  · obtain ⟨label, amount, count⟩ := entry
    rintro ⟨present, isAmount, isCount⟩
    dsimp only at present isAmount isCount
    subst isAmount isCount
    refine List.mem_map.mpr ⟨(label, sumOf numbers (settledOf intents label),
      (settledOf intents label).length), mem_tally.mpr ⟨(listed label).mpr present, ?_⟩, rfl⟩
    rw [filter_succeeded]
    exact folded label

/-- The fold of the balances. -/
theorem foldl_balance (figures : BalanceFigures numbers) :
    intents.foldl (addToBalance numbers) figures =
      ⟨(intents.filter fun intent => intent.status = .succeeded).foldl
          (fun total intent => numbers.add total (num numbers intent.amount)) figures.settled,
        (intents.filter fun intent =>
            intent.status = .pending ∨ intent.status = .submitted).foldl
          (fun total intent => numbers.add total (num numbers intent.amount)) figures.pending,
        figures.settledCount +
          (intents.filter fun intent => intent.status = .succeeded).length⟩ := by
  induction intents generalizing figures with
  | nil => rfl
  | cons intent intents ih =>
      rw [List.foldl_cons, ih]
      cases isStatus : intent.status <;> simp [addToBalance, isStatus]
      omega

theorem mem_balanceData {balance : Balance} :
    balance ∈ balanceData numbers intents ↔
      (∃ intent ∈ intents, assetLabel intent.asset = balance.asset) ∧
        balance.amount = money numbers (sumOf numbers (settledOf intents balance.asset)) ∧
        balance.pending = money numbers (sumOf numbers (awaitedOf intents balance.asset)) ∧
        balance.count = (settledOf intents balance.asset).length := by
  have folded : ∀ label,
      (intents.filter fun intent => assetLabel intent.asset = label).foldl
        (addToBalance numbers) ⟨numbers.ofNat 0, numbers.ofNat 0, 0⟩ =
      ⟨sumOf numbers (settledOf intents label), sumOf numbers (awaitedOf intents label),
        (settledOf intents label).length⟩ := by
    intro label
    rw [foldl_balance, List.filter_filter, List.filter_filter, Nat.zero_add]
    simp only [sumOf, settledOf, awaitedOf, Bool.decide_and]
  rw [balanceData, List.mem_mergeSort]
  constructor
  · intro member
    obtain ⟨⟨label, figures⟩, isEntry, rfl⟩ := List.mem_map.mp member
    obtain ⟨present, collected⟩ := mem_tally.mp isEntry
    rw [folded] at collected
    subst collected
    exact ⟨present, rfl, rfl, rfl⟩
  · obtain ⟨label, amount, pending, count⟩ := balance
    rintro ⟨present, isAmount, isPending, isCount⟩
    dsimp only at present isAmount isPending isCount
    subst isAmount isPending isCount
    exact List.mem_map.mpr ⟨(label, ⟨sumOf numbers (settledOf intents label),
      sumOf numbers (awaitedOf intents label), (settledOf intents label).length⟩),
      mem_tally.mpr ⟨present, folded label⟩, rfl⟩

/-- The entry of the overview for a label that has a succeeded intent. -/
theorem exists_volume {label : String} (present : settledOf intents label ≠ []) :
    ∃ entry ∈ volume numbers intents, entry.asset = label := by
  let entry : AssetVolume := ⟨label, money numbers (sumOf numbers (settledOf intents label)),
    (settledOf intents label).length⟩
  have member : entry ∈ volume numbers intents := mem_volume.mpr ⟨present, rfl, rfl⟩
  exact ⟨entry, member, rfl⟩

/-- The entry of the balances for the label of an intent. -/
theorem exists_balance {intent : PaymentIntent} (stored : intent ∈ intents) :
    ∃ balance ∈ balanceData numbers intents, balance.asset = assetLabel intent.asset := by
  let label := assetLabel intent.asset
  let balance : Balance := ⟨label, money numbers (sumOf numbers (settledOf intents label)),
    money numbers (sumOf numbers (awaitedOf intents label)), (settledOf intents label).length⟩
  have member : balance ∈ balanceData numbers intents :=
    mem_balanceData.mpr ⟨⟨intent, stored, rfl⟩, rfl, rfl, rfl⟩
  exact ⟨balance, member, rfl⟩

theorem nodup_volume : ((volume numbers intents).map AssetVolume.asset).Nodup := by
  have keys := (volumeMap numbers intents).nodup
  rwa [volume, List.map_map]

theorem nodup_balanceData : ((balanceData numbers intents).map Balance.asset).Nodup := by
  have keys := (balanceMap numbers intents).nodup
  rw [balanceData, ((List.mergeSort_perm _ _).map Balance.asset).nodup_iff, List.map_map]
  exact keys

end Entries

/-! ## The statistics of a customer -/

/-- The intents that the account of a customer has paid. -/
def paidBy (intents : List PaymentIntent) (customer : Customer) : List PaymentIntent :=
  match truthy customer.account with
  | none => []
  | some account => intents.filter fun intent => intent.source = some account

section Statistics

open Customers

variable {numbers : Numbers} {intents : List PaymentIntent}

theorem foldl_stats (stats : Stats numbers) :
    intents.foldl (addToStats numbers) stats =
      ⟨stats.payments + intents.length, stats.succeeded + (succeeded intents).length,
        (succeeded intents).foldl
          (fun total intent => numbers.add total (Customers.amountOf numbers intent.amount))
          stats.total⟩ := by
  induction intents generalizing stats with
  | nil => rfl
  | cons intent intents ih =>
      rw [List.foldl_cons, ih]
      by_cases settled : intent.status = .succeeded
      · simp only [addToStats, settled, if_true, List.length_cons, succeeded, List.filter_cons,
          decide_true, List.foldl_cons]
        congr 1 <;> omega
      · simp only [addToStats, settled, if_false, List.length_cons, succeeded, List.filter_cons,
          decide_false, Bool.false_eq_true]
        congr 1
        omega

/-- The figures of a customer are those of the intents that the account has paid. -/
theorem statsOf_eq (customer : Customer) :
    statsOf numbers intents customer =
      ⟨(paidBy intents customer).length, (succeeded (paidBy intents customer)).length,
        (succeeded (paidBy intents customer)).foldl
          (fun total intent => numbers.add total (Customers.amountOf numbers intent.amount))
          (numbers.ofNat 0)⟩ := by
  unfold statsOf paidBy
  cases truthy customer.account with
  | none => rfl
  | some account =>
      dsimp only [Option.bind_some]
      rw [statsMap, get?_tally, foldl_stats, Nat.zero_add, Nat.zero_add]
      split
      · rfl
      · rename_i absent
        have none : intents.filter (fun intent => intent.source = some account) = [] := by
          simpa [List.filter_eq_nil_iff] using absent
        rw [none]
        rfl

theorem paidBy_perm {others : List PaymentIntent} (perm : intents.Perm others)
    (customer : Customer) : (paidBy intents customer).Perm (paidBy others customer) := by
  unfold paidBy
  split
  · exact List.Perm.refl _
  · exact perm.filter _

variable {deployment : Deployment} {world : World} {consumer : GatewayConsumer}
variable {page : CustomerPage}

/-- The rows of the listing: what their counts are. -/
theorem counts_of_returned (parented : world.store.Parented)
    (returned : (findAll consumer numbers).Returns (service deployment) world page)
    {row : CustomerRow} (listed : row ∈ page.data) :
    row.customer ∈ world.store.customersOf consumer.username ∧
      row.payments =
        (paidBy (world.store.sourcedIntentsOf consumer.username) row.customer).length ∧
      row.succeeded =
        (succeeded
          (paidBy (world.store.sourcedIntentsOf consumer.username) row.customer)).length := by
  obtain ⟨customers, intents, listedCustomers, perm, rfl⟩ :=
    (returns_customers parented).mp returned
  obtain ⟨customer, member, rfl⟩ := List.mem_map.mp listed
  have paid := paidBy_perm perm customer
  refine ⟨listedCustomers.1.mem_iff.mp member, ?_, ?_⟩
  · rw [customerRow, statsOf_eq]
    exact paid.length_eq
  · rw [customerRow, statsOf_eq]
    exact (paid.filter _).length_eq

/-- Every customer has a row. -/
theorem exists_row_of_returned (parented : world.store.Parented)
    (returned : (findAll consumer numbers).Returns (service deployment) world page)
    {customer : Customer} (stored : customer ∈ world.store.customersOf consumer.username) :
    ∃ row ∈ page.data, row.customer = customer := by
  obtain ⟨customers, intents, listedCustomers, perm, rfl⟩ :=
    (returns_customers parented).mp returned
  exact ⟨customerRow numbers intents customer,
    List.mem_map_of_mem (listedCustomers.1.mem_iff.mpr stored), rfl⟩

end Statistics

/-! ## Exact sums -/

/-- The value of an amount; amounts that are no numbers count as zero. -/
def exactAmount (intent : PaymentIntent) : Rat :=
  ((truthy intent.amount).bind Text.decimalValue).getD 0

theorem num_exact (intent : PaymentIntent) :
    num .exact intent.amount = Numbers.ofRat (exactAmount intent) := by
  unfold exactAmount num
  cases truthy intent.amount with
  | none => rfl
  | some text =>
      dsimp only [Option.bind_some]
      rw [Numbers.exact_isFinite]
      cases isValue : Text.decimalValue text with
      | none => rfl
      | some value => exact Numbers.exact_number isValue

theorem sumOf_exact (intents : List PaymentIntent) :
    sumOf .exact intents = Numbers.ofRat (intents.map exactAmount).sum := by
  have folded : ∀ start : Rat,
      intents.foldl (fun total intent => Numbers.exact.add total (num .exact intent.amount))
        (Numbers.ofRat start) = Numbers.ofRat (start + (intents.map exactAmount).sum) := by
    induction intents with
    | nil => simp
    | cons intent intents ih =>
        intro start
        rw [List.foldl_cons, num_exact, Numbers.exact_add, ih, List.map_cons, List.sum_cons,
          add_assoc]
  rw [sumOf, Numbers.exact_ofNat, folded, Nat.cast_zero, zero_add]

theorem sumOf_perm {intents others : List PaymentIntent} (perm : intents.Perm others) :
    sumOf .exact intents = sumOf .exact others := by
  rw [sumOf_exact, sumOf_exact, (perm.map exactAmount).sum_eq]

/-! ## The overview and the balances -/

/-- The overview and the balances of the same intents: the overview lists the labels that
have a succeeded intent, with the amounts and counts of the balances, the other balances are
empty, and the pending amounts are those of the intents that await their payment. -/
structure FiguresAgree (table : List PaymentIntent) (summary : Summary) (page : BalancePage) :
    Prop where
  labels : ∀ label, (∃ entry ∈ summary.volume, entry.asset = label) ↔
    ∃ intent ∈ table, intent.status = .succeeded ∧ assetLabel intent.asset = label
  volumeOnce : (summary.volume.map AssetVolume.asset).Nodup
  balancesOnce : (page.data.map Balance.asset).Nodup
  settled : ∀ entry ∈ summary.volume, ∃ balance ∈ page.data, balance.asset = entry.asset ∧
    balance.amount = entry.amount ∧ balance.count = entry.count
  others : ∀ balance ∈ page.data, (∀ entry ∈ summary.volume, entry.asset ≠ balance.asset) →
    balance.amount = "0" ∧ balance.count = 0
  volumeCounts : (summary.volume.map AssetVolume.count).sum = summary.totals.succeeded
  balanceCounts : (page.data.map Balance.count).sum = summary.totals.succeeded
  pending : ∀ balance ∈ page.data, balance.pending =
    money .exact (Numbers.ofRat ((awaitedOf table balance.asset).map exactAmount).sum)

section Agreement

variable {table intents others : List PaymentIntent}

theorem settledOf_ne_nil_iff (label : String) : settledOf intents label ≠ [] ↔
    ∃ intent ∈ intents, intent.status = .succeeded ∧ assetLabel intent.asset = label := by
  simp [settledOf, List.filter_eq_nil_iff]

theorem length_settledOf (label : String) : (settledOf intents label).length =
    (succeeded intents).countP fun intent => assetLabel intent.asset = label := by
  rw [← filter_succeeded, List.countP_eq_length_filter]

/-- The counts of entries with different labels add up, if no succeeded intent is left out. -/
theorem sum_length_settledOf {labels : List String} (nodup : labels.Nodup)
    (all : ∀ intent ∈ succeeded intents, assetLabel intent.asset ∈ labels) :
    (labels.map fun label => (settledOf intents label).length).sum =
      (succeeded intents).length := by
  simp only [length_settledOf]
  exact sum_countP_keys nodup all

theorem mem_succeeded {intent : PaymentIntent} :
    intent ∈ succeeded intents ↔ intent ∈ intents ∧ intent.status = .succeeded := by
  simp [succeeded]

theorem sum_volume_count {numbers : Numbers} :
    ((volume numbers intents).map AssetVolume.count).sum = (succeeded intents).length := by
  have counts : (volume numbers intents).map AssetVolume.count =
      ((volume numbers intents).map AssetVolume.asset).map fun label =>
        (settledOf intents label).length := by
    rw [List.map_map]
    exact List.map_congr_left fun entry member => (mem_volume.mp member).2.2
  rw [counts]
  refine sum_length_settledOf nodup_volume fun intent member => ?_
  obtain ⟨stored, isSucceeded⟩ := mem_succeeded.mp member
  have present : settledOf intents (assetLabel intent.asset) ≠ [] :=
    (settledOf_ne_nil_iff _).mpr ⟨intent, stored, isSucceeded, rfl⟩
  exact List.mem_map.mpr (exists_volume present)

theorem sum_balance_count {numbers : Numbers} :
    ((balanceData numbers intents).map Balance.count).sum = (succeeded intents).length := by
  have counts : (balanceData numbers intents).map Balance.count =
      ((balanceData numbers intents).map Balance.asset).map fun label =>
        (settledOf intents label).length := by
    rw [List.map_map]
    exact List.map_congr_left fun balance member => (mem_balanceData.mp member).2.2.2
  rw [counts]
  refine sum_length_settledOf nodup_balanceData fun intent member => ?_
  obtain ⟨stored, -⟩ := mem_succeeded.mp member
  exact List.mem_map.mpr (exists_balance stored)

/-- Whatever the orders of the two listings are. -/
theorem figuresAgree_of_perm {now : Nat} {webhooks : WebhookHealth} (listed : intents.Perm table)
    (balanced : others.Perm table) :
    FiguresAgree table (overview .exact now webhooks intents)
      ⟨balanceData .exact others, (balanceData .exact others).length⟩ := by
  have perm : intents.Perm others := listed.trans balanced.symm
  have settledPerm : ∀ label, (settledOf intents label).Perm (settledOf others label) :=
    fun label => perm.filter _
  have onlySettled : ∀ label, (∃ entry ∈ volume .exact intents, entry.asset = label) ↔
      settledOf intents label ≠ [] := by
    intro label
    constructor
    · rintro ⟨entry, member, rfl⟩
      exact (mem_volume.mp member).1
    · exact exists_volume
  constructor
  case labels =>
    intro label
    refine (onlySettled label).trans ((settledOf_ne_nil_iff label).trans ?_)
    simp only [listed.mem_iff]
  case volumeOnce => exact nodup_volume
  case balancesOnce => exact nodup_balanceData
  case settled =>
    intro entry member
    obtain ⟨present, isAmount, isCount⟩ := mem_volume.mp member
    obtain ⟨intent, stored, -, isLabel⟩ := (settledOf_ne_nil_iff _).mp present
    obtain ⟨balance, isBalance, same⟩ := exists_balance (perm.mem_iff.mp stored)
    obtain ⟨-, isSettled, -, settledCount⟩ := mem_balanceData.mp isBalance
    rw [isLabel] at same
    refine ⟨balance, isBalance, same, ?_, ?_⟩
    · rw [isSettled, isAmount, same, sumOf_perm (settledPerm entry.asset)]
    · rw [settledCount, isCount, same, (settledPerm entry.asset).length_eq]
  case others =>
    intro balance member unlisted
    obtain ⟨-, isAmount, -, isCount⟩ := mem_balanceData.mp member
    have none : settledOf others balance.asset = [] := by
      by_contra present
      have isListed : settledOf intents balance.asset ≠ [] := by
        rintro empty
        exact present (List.perm_nil.mp (empty ▸ (settledPerm balance.asset).symm))
      obtain ⟨entry, isEntry, same⟩ := (onlySettled balance.asset).mpr isListed
      exact unlisted entry isEntry same
    rw [isAmount, isCount, none]
    exact ⟨by decide +kernel, rfl⟩
  case volumeCounts => exact sum_volume_count
  case balanceCounts =>
    refine sum_balance_count.trans ?_
    exact ((perm.filter _).length_eq).symm
  case pending =>
    intro balance member
    obtain ⟨-, -, isPending, -⟩ := mem_balanceData.mp member
    have awaitedPerm : (awaitedOf others balance.asset).Perm (awaitedOf table balance.asset) :=
      balanced.filter _
    rw [isPending, sumOf_perm awaitedPerm, sumOf_exact]

end Agreement

/-- The summary and the balances that one database returns agree on every asset label, in
whatever orders the rows come. -/
theorem overview_balances_agree {deployment : Deployment} {world : World}
    {consumer : GatewayConsumer} {summary : Summary} {page : BalancePage}
    (parented : world.store.Parented)
    (summarized : (Analytics.summary consumer).Returns (service deployment) world summary)
    (balanced : (Analytics.balances consumer).Returns (service deployment) world page) :
    FiguresAgree (world.store.intentsOf consumer.username (Analytics.network consumer))
      summary page := by
  obtain ⟨intents, ⟨listed, -⟩, rfl⟩ := (returns_summary parented).mp summarized
  obtain ⟨others, unordered, rfl⟩ := (returns_balances parented).mp balanced
  exact figuresAgree_of_perm listed unordered

/-- One intent is paid. -/
theorem overview_balances_agree_of_paidPayIntent :
    ∃ summary page, FiguresAgree
        ((World.store paidPayIntent.state).intentsOf "alice" .testnet) summary page ∧
      summary.volume = [⟨"XLM", "25.5", 1⟩] ∧ page.data = [⟨"XLM", "25.5", "0", 1⟩] := by
  have run : Run (fun _ _ => True) Sample.start paidPayIntent :=
    run_after (fun _ _ _ => trivial) _ _
  have shown : ((Analytics.summary (Sample.caller "alice")).returned? (service Sample.deployment)
      [.draw "x", .arrange ["pi"], .serve, .arrange []] paidPayIntent.state).map
        Summary.volume = some [⟨"XLM", "25.5", 1⟩] := by
    decide +kernel
  obtain ⟨summary, returned, isVolume⟩ := Option.map_eq_some_iff.mp shown
  have shown' : ((Analytics.balances (Sample.caller "alice")).returned?
      (service Sample.deployment) [.draw "x", .arrange ["pi"]] paidPayIntent.state).map
        BalancePage.data = some [⟨"XLM", "25.5", "0", 1⟩] := by
    decide +kernel
  obtain ⟨page, returned', isData⟩ := Option.map_eq_some_iff.mp shown'
  exact ⟨summary, page, overview_balances_agree (parented_of_run run rfl)
    (returns_of_returned? returned) (returns_of_returned? returned'), isVolume, isData⟩

end CosmosPay
