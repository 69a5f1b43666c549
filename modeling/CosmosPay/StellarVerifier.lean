import CosmosPay.Calls
import CosmosPay.Text.Numeral

/-!
# The verifier

Does a transaction on the chain fulfil an intent?  Either the caller names the
transaction, or the recent payments to the destination are searched.
-/

namespace CosmosPay

open Awaiting

structure VerificationResult where
  valid : Bool
  txHash : Option String := none
  reason : Option String := none
  payer : Option String := none
  deriving DecidableEq

namespace StellarVerifier

/-- An asset code and issuer that are absent on the chain equal nothing. -/
def paymentMatches (intent : PaymentIntent) (op : OperationRecord) : Bool :=
  if op.type ≠ "payment" then false
  else if op.toAccount ≠ intent.destination then false
  else if intent.asset = "native" && op.assetType ≠ "native" then false
  else if intent.asset ≠ "native" &&
      (op.assetCode ≠ some intent.asset || op.assetIssuer = none ||
        op.assetIssuer ≠ intent.assetIssuer) then false
  else
    match intent.amount with
    | some amount => Text.sameNumber (Text.number op.amount) (Text.number amount)
    | none => true

/-- `none` when the memo matches, otherwise the reason. -/
def memoMatches (intent : PaymentIntent) (memoType : String) (memo : Option String) :
    Option String :=
  if memoType ≠ "id" || memo.getD "" ≠ intent.memo then
    some ("Memo mismatch (expected id memo \"" ++ intent.memo ++ "\")")
  else none

/-- Horizon's `404` is a result, any other error is thrown. -/
def orNotFound (lookup : HorizonCall) : Promise (Option lookup.Answer) :=
  tryCatch (some <$> Promise.horizon lookup) fun err =>
    match err with
    | .horizon (some 404) => pure none
    | err => throw err

def verifyByHash (intent : PaymentIntent) (txHash : String) : Promise VerificationResult := do
  match ← orNotFound (.transaction intent.network txHash) with
  | none => pure { valid := false, reason := "Transaction not found on-chain" }
  | some tx =>
      if !tx.successful then
        pure { valid := false, reason := "Transaction failed on-chain" }
      else
        match memoMatches intent tx.memoType tx.memo with
        | some reason => pure { valid := false, reason }
        | none => do
            let payments ←
              Promise.horizon (.paymentsForTransaction intent.network txHash)
            match payments.find? (paymentMatches intent) with
            | none =>
                pure { valid := false,
                       reason := "No native payment in this transaction matches the " ++
                         "destination/amount" }
            | some payment =>
                pure { valid := true, txHash, payer := payment.fromAccount }

/-- The first operation of the page that matches and sits in a successful
transaction with the intent's memo. -/
def scan (intent : PaymentIntent) : List OperationRecord → Promise VerificationResult
  | [] => pure { valid := false, reason := "No matching payment found yet" }
  | op :: page =>
      if !paymentMatches intent op then scan intent page
      else do
        let tx ← Promise.horizon (.transaction intent.network op.transactionHash)
        if !tx.successful then scan intent page
        else
          match memoMatches intent tx.memoType tx.memo with
          | some _ => scan intent page
          | none => pure { valid := true, txHash := op.transactionHash, payer := op.fromAccount }

def findMatchingPayment (intent : PaymentIntent) (limit : Nat := 50) :
    Promise VerificationResult := do
  match ← orNotFound (.paymentsForAccount intent.network intent.destination limit) with
  | none => pure { valid := false, reason := "Destination account not found" }
  | some records => scan intent records

end StellarVerifier

end CosmosPay
