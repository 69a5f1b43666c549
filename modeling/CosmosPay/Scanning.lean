import CosmosPay.Awaiting.Evaluation
import CosmosPay.Service

/-!
# Scanning a page

`findMatchingPayment` goes through a page of records from its newest one on, and looks up the
transactions of those that match.  Whatever the records are and whatever transactions their
hashes name, it reports the first record that satisfies the whole rule.
-/

namespace CosmosPay

open Awaiting Program StellarVerifier

/-- The first item with a property is one item, however the list is split at it. -/
theorem first_unique {α : Type} {holds : α → Prop} {before after before' after' : List α}
    {item item' : α} (split : before ++ item :: after = before' ++ item' :: after')
    (earlier : ∀ other ∈ before, ¬ holds other) (earlier' : ∀ other ∈ before', ¬ holds other)
    (isFirst : holds item) (isFirst' : holds item') : item = item' := by
  induction before generalizing before' with
  | nil =>
      cases before' with
      | nil => exact (List.cons.inj split).1
      | cons first before' =>
          obtain ⟨rfl, -⟩ := List.cons.inj split
          exact absurd isFirst (earlier' item List.mem_cons_self)
  | cons first before ih =>
      cases before' with
      | nil =>
          obtain ⟨rfl, -⟩ := List.cons.inj split
          exact absurd isFirst' (earlier first List.mem_cons_self)
      | cons other before' =>
          apply ih (List.cons.inj split).2
          · exact fun item member => earlier item (List.mem_cons_of_mem first member)
          · exact fun item member => earlier' item (List.mem_cons_of_mem other member)

/-- The transaction was successful, and its memo is the intent's. -/
def TransactionRecord.Passes (tx : TransactionRecord) (intent : PaymentIntent) : Prop :=
  tx.successful = true ∧ memoMatches intent tx.memoType tx.memo = none

instance (tx : TransactionRecord) (intent : PaymentIntent) : Decidable (tx.Passes intent) :=
  inferInstanceAs (Decidable (_ ∧ _))

/-- The lookup of the transaction that a record belongs to. -/
abbrev lookupOf (intent : PaymentIntent) (op : OperationRecord) : Call :=
  .horizon (.transaction intent.network op.transactionHash)

/-- The result of a scan that has found this record. -/
def detection (op : OperationRecord) : VerificationResult :=
  { valid := true, txHash := op.transactionHash, payer := op.fromAccount }

/-- The result of a scan that has found none. -/
def undetected : VerificationResult :=
  { valid := false, reason := "No matching payment found yet" }

/-- A scan looks up the transaction of a matching record, and ends with the first that passes. -/
theorem scan_cons (intent : PaymentIntent) (op : OperationRecord) (page : List OperationRecord) :
    scan intent (op :: page) =
      if paymentMatches intent op then do
        let tx ← Promise.horizon (.transaction intent.network op.transactionHash)
        if tx.Passes intent then pure (detection op) else scan intent page
      else scan intent page := by
  conv => lhs; unfold scan
  cases paymentMatches intent op with
  | false => rfl
  | true =>
      refine congrArg (Promise.horizon (.transaction intent.network op.transactionHash) >>= ·)
        (funext fun (tx : TransactionRecord) => ?_)
      cases isSuccessful : tx.successful with
      | false => simp [TransactionRecord.Passes, isSuccessful]
      | true =>
          cases memo : memoMatches intent tx.memoType tx.memo <;>
            simp [TransactionRecord.Passes, isSuccessful, memo, detection]

section Answers

variable {answers : (call : Call) → signature.Result call} {intent : PaymentIntent} {α : Type}

/-- The record matches, and its transaction is found and passes. -/
def Fulfilling (answers : (call : Call) → signature.Result call) (intent : PaymentIntent)
    (op : OperationRecord) : Prop :=
  paymentMatches intent op = true ∧
    ∃ tx, answers (lookupOf intent op) = .ok tx ∧ tx.Passes intent

theorem fulfilling_iff {op : OperationRecord} {tx : TransactionRecord}
    (matching : paymentMatches intent op = true) (found : answers (lookupOf intent op) = .ok tx) :
    Fulfilling answers intent op ↔ tx.Passes intent := by
  constructor
  · rintro ⟨-, other, isOther, passes⟩
    obtain rfl : tx = other := Except.ok.inj (found.symm.trans isOther)
    exact passes
  · exact fun passes => ⟨matching, tx, found, passes⟩

section Steps

variable {op : OperationRecord} {page : List OperationRecord}

theorem scan_of_unmatched (unmatched : paymentMatches intent op = false) :
    scan intent (op :: page) = scan intent page := by
  rw [scan_cons, unmatched, if_neg Bool.false_ne_true]

variable (matching : paymentMatches intent op = true)

include matching

theorem asked_scan_of_error {err : ServiceError}
    (failed : answers (lookupOf intent op) = .error err) :
    (scan intent (op :: page)).asked answers = [lookupOf intent op] := by
  rw [scan_cons, matching, if_pos rfl]
  exact asked_call_bind_error failed _

variable {tx : TransactionRecord} (found : answers (lookupOf intent op) = .ok tx)

include found

theorem asked_scan_of_ok :
    (scan intent (op :: page)).asked answers = lookupOf intent op ::
      if tx.Passes intent then [] else (scan intent page).asked answers := by
  rw [scan_cons, matching, if_pos rfl]
  refine (asked_call_bind_ok found _).trans ?_
  split <;> rfl

theorem evaluate_scan_of_ok :
    (scan intent (op :: page)).evaluate answers =
      if tx.Passes intent then .ok (detection op) else (scan intent page).evaluate answers := by
  rw [scan_cons, matching, if_pos rfl]
  refine (evaluate_bind _ _).trans ?_
  refine (congrArg (Except.bind · _) found).trans ?_
  simp only [Except.bind]
  split <;> rfl

end Steps

/-- Only the transactions of matching records are looked up, one after another. -/
theorem asked_scan (answers : (call : Call) → signature.Result call) (intent : PaymentIntent)
    (page : List OperationRecord) :
    ∃ examined, examined <+: page.filter (paymentMatches intent) ∧
      (scan intent page).asked answers = examined.map (lookupOf intent) := by
  induction page with
  | nil => exact ⟨[], List.nil_prefix, rfl⟩
  | cons op page ih =>
      obtain ⟨examined, begins, isAsked⟩ := ih
      cases matching : paymentMatches intent op with
      | false =>
          rw [List.filter_cons_of_neg (by simp [matching]), scan_of_unmatched matching]
          exact ⟨examined, begins, isAsked⟩
      | true =>
          rw [List.filter_cons_of_pos matching]
          -- the scan ends with this record, or it goes on
          have ends : [op] <+: op :: page.filter (paymentMatches intent) :=
            (List.prefix_cons_inj op).mpr List.nil_prefix
          have goesOn : op :: examined <+: op :: page.filter (paymentMatches intent) :=
            (List.prefix_cons_inj op).mpr begins
          cases found : answers (lookupOf intent op) with
          | error err => exact ⟨[op], ends, asked_scan_of_error matching found⟩
          | ok tx =>
              rw [asked_scan_of_ok matching found]
              by_cases passes : tx.Passes intent
              · exact ⟨[op], ends, by simp [passes]⟩
              · exact ⟨op :: examined, goesOn, by simp [passes, isAsked]⟩

/-- A scan of a page has found the first record that satisfies the rule, or no record does. -/
inductive Scanned (answers : (call : Call) → signature.Result call) (intent : PaymentIntent)
    (page : List OperationRecord) : VerificationResult → Prop where
  | nothing (unfulfilling : ∀ op ∈ page, ¬ Fulfilling answers intent op) :
      Scanned answers intent page undetected
  | first (newer : List OperationRecord) (op : OperationRecord) (older : List OperationRecord)
      (split : page = newer ++ op :: older)
      (unfulfilling : ∀ other ∈ newer, ¬ Fulfilling answers intent other)
      (fulfilling : Fulfilling answers intent op) : Scanned answers intent page (detection op)

/-- A record that does not satisfy the rule makes no difference. -/
theorem Scanned.cons {op : OperationRecord} {page : List OperationRecord}
    {result : VerificationResult} (scanned : Scanned answers intent page result)
    (unfulfilling : ¬ Fulfilling answers intent op) :
    Scanned answers intent (op :: page) result := by
  cases scanned with
  | nothing others => exact .nothing (List.forall_mem_cons.mpr ⟨unfulfilling, others⟩)
  | first newer found older split others fulfilling =>
      subst split
      exact .first (op :: newer) found older rfl (List.forall_mem_cons.mpr ⟨unfulfilling, others⟩)
        fulfilling

theorem Scanned.valid_iff {page : List OperationRecord} {result : VerificationResult}
    (scanned : Scanned answers intent page result) :
    result.valid = true ↔ ∃ op ∈ page, Fulfilling answers intent op := by
  cases scanned with
  | nothing unfulfilling =>
      refine iff_of_false Bool.false_ne_true ?_
      rintro ⟨op, member, fulfilling⟩
      exact unfulfilling op member fulfilling
  | first newer op older split _ fulfilling =>
      refine iff_of_true rfl ⟨op, ?_, fulfilling⟩
      rw [split]
      exact List.mem_append_right newer List.mem_cons_self

/-- The first record that satisfies the rule is the one that is reported. -/
theorem Scanned.eq_detection {page newer older : List OperationRecord} {op : OperationRecord}
    {result : VerificationResult} (scanned : Scanned answers intent page result)
    (split : page = newer ++ op :: older)
    (unfulfilling : ∀ other ∈ newer, ¬ Fulfilling answers intent other)
    (fulfilling : Fulfilling answers intent op) : result = detection op := by
  cases scanned with
  | nothing none =>
      refine absurd fulfilling (none op ?_)
      rw [split]
      exact List.mem_append_right newer List.mem_cons_self
  | first newer' op' older' split' unfulfilling' fulfilling' =>
      rw [first_unique (split.symm.trans split') unfulfilling unfulfilling' fulfilling fulfilling']

/-- A scan whose lookups are all answered. -/
theorem exists_scanned {page : List OperationRecord}
    (answered : ∀ call ∈ (scan intent page).asked answers, ∃ answer, answers call = .ok answer) :
    ∃ result, (scan intent page).evaluate answers = .ok result ∧
      Scanned answers intent page result := by
  induction page with
  | nil => exact ⟨undetected, rfl, .nothing fun _ member => absurd member List.not_mem_nil⟩
  | cons op page ih =>
      cases matching : paymentMatches intent op with
      | false =>
          rw [scan_of_unmatched matching] at answered ⊢
          obtain ⟨result, evaluated, scanned⟩ := ih answered
          refine ⟨result, evaluated, scanned.cons ?_⟩
          rintro ⟨isMatching, -⟩
          rw [matching] at isMatching
          cases isMatching
      | true =>
          cases found : answers (lookupOf intent op) with
          | error err =>
              rw [asked_scan_of_error matching found] at answered
              obtain ⟨tx, isTx⟩ := answered _ List.mem_cons_self
              rw [found] at isTx
              cases isTx
          | ok tx =>
              rw [asked_scan_of_ok matching found] at answered
              rw [evaluate_scan_of_ok matching found]
              by_cases passes : tx.Passes intent
              · refine ⟨detection op, if_pos passes, .first [] op page rfl ?_ ?_⟩
                · exact fun _ member => absurd member List.not_mem_nil
                · exact (fulfilling_iff matching found).mpr passes
              · rw [if_neg passes] at answered ⊢
                obtain ⟨result, evaluated, scanned⟩ := ih fun call member =>
                  answered call (List.mem_cons_of_mem _ member)
                exact ⟨result, evaluated,
                  scanned.cons (mt (fulfilling_iff matching found).mp passes)⟩

/-! ## The search -/

section Search

variable {limit : Nat} {page : List OperationRecord}
variable (listed : answers (.horizon (.paymentsForAccount intent.network intent.destination
  limit)) = .ok page)

include listed

/-- The page is there. -/
theorem orNotFound_page :
    (orNotFound (.paymentsForAccount intent.network intent.destination limit)).evaluate answers =
        .ok (some page) ∧
      (orNotFound (.paymentsForAccount intent.network intent.destination limit)).asked answers =
        [.horizon (.paymentsForAccount intent.network intent.destination limit)] := by
  have isPage : (Promise.horizon (.paymentsForAccount intent.network intent.destination
      limit)).evaluate answers = .ok page := listed
  unfold orNotFound
  rw [evaluate_tryCatch, asked_tryCatch, evaluate_map, asked_map, isPage]
  exact ⟨rfl, rfl⟩

theorem evaluate_findMatchingPayment :
    (findMatchingPayment intent limit).evaluate answers = (scan intent page).evaluate answers := by
  unfold findMatchingPayment
  rw [evaluate_bind, (orNotFound_page listed).1]
  rfl

theorem asked_findMatchingPayment :
    (findMatchingPayment intent limit).asked answers =
      .horizon (.paymentsForAccount intent.network intent.destination limit) ::
        (scan intent page).asked answers := by
  unfold findMatchingPayment
  rw [asked_bind, (orNotFound_page listed).1, (orNotFound_page listed).2]
  rfl

end Search

/-- What `findMatchingPayment` reports of a page, and what it looks up on the way: if every
lookup is answered, the result is valid exactly when some record of the page satisfies the rule;
it names the first such record and its sender; and the transactions looked up are those of
matching records, in the order of the page. -/
theorem findMatchingPayment_first {limit : Nat} {page : List OperationRecord}
    (listed : answers (.horizon (.paymentsForAccount intent.network intent.destination limit)) =
      .ok page)
    (answered : ∀ call ∈ (findMatchingPayment intent limit).asked answers,
      ∃ answer, answers call = .ok answer) :
    (∃ result, (findMatchingPayment intent limit).evaluate answers = .ok result ∧
      (result.valid = true ↔ ∃ op ∈ page, Fulfilling answers intent op) ∧
      ∀ newer op older, page = newer ++ op :: older →
        (∀ other ∈ newer, ¬ Fulfilling answers intent other) → Fulfilling answers intent op →
          result.txHash = some op.transactionHash ∧ result.payer = some op.fromAccount) ∧
    ∃ examined, examined <+: page.filter (paymentMatches intent) ∧
      (findMatchingPayment intent limit).asked answers =
        .horizon (.paymentsForAccount intent.network intent.destination limit) ::
          examined.map (lookupOf intent) := by
  rw [asked_findMatchingPayment listed] at answered ⊢
  rw [evaluate_findMatchingPayment listed]
  obtain ⟨result, evaluated, scanned⟩ := exists_scanned fun call member =>
    answered call (List.mem_cons_of_mem _ member)
  obtain ⟨examined, begins, isAsked⟩ := asked_scan answers intent page
  refine ⟨⟨result, evaluated, scanned.valid_iff, fun newer op older split unfulfilling fulfilling =>
    ?_⟩, examined, begins, congrArg _ isAsked⟩
  obtain rfl := scanned.eq_detection split unfulfilling fulfilling
  exact ⟨rfl, rfl⟩

end Answers

/-- A failed payment is newer than a successful one. -/
def Sample.newest : List OperationRecord :=
  (payment '2' false 7).payments ++ (payment '1' true 7).payments

/-- Horizon shows the two payments. -/
def Sample.horizon : (call : Call) → signature.Result call
  | .horizon (.paymentsForAccount _ _ _) => .ok newest
  | .horizon (.transaction _ hash) =>
      .ok (if hash = Sample.hash '1' then (payment '1' true 7).record
        else (payment '2' false 7).record)
  | _ => .error disconnected

theorem listed_newest (limit : Nat) : Sample.horizon (.horizon (.paymentsForAccount
    Sample.intent.network Sample.intent.destination limit)) = .ok Sample.newest :=
  rfl

theorem answered_horizon (limit : Nat) :
    ∀ call ∈ (findMatchingPayment Sample.intent limit).asked Sample.horizon,
      ∃ answer, Sample.horizon call = .ok answer := by
  intro call member
  obtain ⟨examined, -, isAsked⟩ := asked_scan Sample.horizon Sample.intent Sample.newest
  rw [asked_findMatchingPayment (listed_newest limit), isAsked] at member
  rcases List.mem_cons.mp member with rfl | looked
  · exact ⟨_, listed_newest limit⟩
  · obtain ⟨op, -, rfl⟩ := List.mem_map.mp looked
    exact ⟨_, rfl⟩

theorem findMatchingPayment_first_of_payments :
    ∃ result, (findMatchingPayment Sample.intent 50).evaluate Sample.horizon = .ok result ∧
      result.txHash = some (Sample.hash '1') ∧ result.payer = some Sample.payer := by
  obtain ⟨⟨result, evaluated, -, first⟩, -⟩ :=
    findMatchingPayment_first (listed_newest 50) (answered_horizon 50)
  obtain ⟨hash, payer⟩ := first _ _ [] rfl
    (fun other member => by
      obtain rfl := List.mem_singleton.mp member
      rw [fulfilling_iff (by decide +kernel) rfl]
      decide +kernel)
    ((fulfilling_iff (by decide +kernel) rfl).mpr (by decide +kernel))
  exact ⟨result, evaluated, hash, payer⟩

end CosmosPay
