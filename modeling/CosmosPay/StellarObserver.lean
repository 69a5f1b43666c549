import CosmosPay.PaymentIntents

/-!
# The observer

A tick of the timer first expires intents past their lifetime and then looks for
payments of the pending ones.  An item that fails is logged and skipped.
-/

namespace CosmosPay

open Awaiting

namespace StellarObserver

variable (deployment : Deployment)

/-- `task.catch((err) => this.logger.error(…))` -/
def logged (task : Promise Unit) : Promise Unit :=
  tryCatch task fun _ => pure ()

def expire : PaymentIntent × String → Promise Unit
  | (intent, owner) => logged do
      let _ ← PaymentIntents.markExpired intent.id owner
      pure ()

def verify (intent : PaymentIntent) : Promise VerificationResult :=
  match truthy intent.txHash with
  | some txHash => StellarVerifier.verifyByHash intent txHash
  | none => StellarVerifier.findMatchingPayment intent

def reconcile : PaymentIntent × String → Promise Unit
  | (intent, owner) => do
      let result ← verify intent
      match result.valid, truthy result.txHash with
      | true, some txHash =>
          let _ ← PaymentIntents.markSucceeded intent.id owner txHash result.payer
          pure ()
      | _, _ => pure ()

def expiryPass : Promise Unit := do
  let now ← Promise.call .now
  let expired ← Promise.query (.expiredIntents now deployment.config.batchSize)
  expired.forM expire

def reconcilePass : Promise Unit := do
  let pending ← Promise.query (.pendingIntents deployment.config.batchSize)
  pending.forM fun intent => logged (reconcile intent)

/-- The `running` flag keeps the ticks of one instance apart. -/
def tick (node : Nat) : Promise Unit := do
  let entered ← Promise.call (.enterTick node)
  if entered then
    logged do
      expiryPass deployment
      reconcilePass deployment
    Promise.call (.leaveTick node)
  else pure ()

end StellarObserver

end CosmosPay
