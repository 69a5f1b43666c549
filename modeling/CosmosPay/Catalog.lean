import CosmosPay.PaymentIntents
import CosmosPay.Tables.Tally

/-!
# Customers and products

The records that a merchant keeps besides the intents.
-/

namespace CosmosPay

open Awaiting Tables
open Text (Numbers trim)

/-- A customer with the figures of the intents that the customer's account has paid. -/
structure CustomerRow where
  customer : Customer
  payments : Nat
  succeeded : Nat
  total : String
  deriving DecidableEq

structure CustomerPage where
  data : List CustomerRow
  total : Nat
  deriving DecidableEq

namespace Customers

def resolveConsumer (consumer : GatewayConsumer) : Promise Consumer :=
  Promise.write (.upsertConsumer consumer.username consumer.credentialId)

def create (consumer : GatewayConsumer) (dto : CreateCustomerDto) : Promise Customer := do
  let localConsumer ← resolveConsumer consumer
  Promise.write (.create .customer
    { consumerId := localConsumer.id, name := dto.name,
      displayAlias := dto.displayAlias.toOption, note := dto.note.toOption,
      email := dto.email.toOption, account := dto.account.toOption,
      reference := dto.reference.toOption })

/-- What the listing collects for a source. -/
structure Stats (numbers : Numbers) where
  payments : Nat
  succeeded : Nat
  total : numbers.Value

/-- `Number(amount) || 0` -/
def amountOf (numbers : Numbers) (amount : Option String) : numbers.Value :=
  match amount with
  | none => numbers.ofNat 0
  | some text =>
      if numbers.isNaN (numbers.number text) then numbers.ofNat 0 else numbers.number text

def addToStats (numbers : Numbers) (stats : Stats numbers) (intent : PaymentIntent) :
    Stats numbers :=
  if intent.status = .succeeded then
    ⟨stats.payments + 1, stats.succeeded + 1,
      numbers.add stats.total (amountOf numbers intent.amount)⟩
  else { stats with payments := stats.payments + 1 }

def statsMap (numbers : Numbers) (intents : List PaymentIntent) :
    OrderedMap (Option String) (Stats numbers) :=
  tally PaymentIntent.source ⟨0, 0, numbers.ofNat 0⟩ (addToStats numbers) intents

/-- A customer without an account, or whose account has paid nothing, gets zeros. -/
def statsOf (numbers : Numbers) (intents : List PaymentIntent) (customer : Customer) :
    Stats numbers :=
  ((truthy customer.account).bind fun account =>
    (statsMap numbers intents).get? (some account)).getD ⟨0, 0, numbers.ofNat 0⟩

def customerRow (numbers : Numbers) (intents : List PaymentIntent) (customer : Customer) :
    CustomerRow where
  customer := customer
  payments := (statsOf numbers intents customer).payments
  succeeded := (statsOf numbers intents customer).succeeded
  total := numbers.toString (numbers.toFixed (statsOf numbers intents customer).total)

def findAll (consumer : GatewayConsumer) (numbers : Numbers := .exact) :
    Promise CustomerPage := do
  let localConsumer ← resolveConsumer consumer
  let customers ← Promise.query (.customersOf localConsumer.id)
  let intents ← Promise.query (.sourcedIntents localConsumer.id)
  let data := customers.map (customerRow numbers intents)
  pure ⟨data, data.length⟩

def findOne (consumer : GatewayConsumer) (id : String) : Promise Customer := do
  let localConsumer ← resolveConsumer consumer
  match ← Promise.query (.customerOwned id localConsumer.id) with
  | none => throw (.notFound "Customer not found")
  | some customer => pure customer

def patchOf (dto : UpdateCustomerDto) : CustomerPatch where
  name := dto.name
  displayAlias := dto.displayAlias
  note := dto.note
  email := dto.email
  account := dto.account
  reference := dto.reference

def update (consumer : GatewayConsumer) (id : String) (dto : UpdateCustomerDto) :
    Promise Customer := do
  let _ ← findOne consumer id
  Promise.write (.update .customer id (patchOf dto))

def remove (consumer : GatewayConsumer) (id : String) : Promise String := do
  let _ ← findOne consumer id
  let _ ← Promise.write (.delete .customer id)
  pure id

end Customers

namespace Products

def resolveConsumer (consumer : GatewayConsumer) : Promise Consumer :=
  Promise.write (.upsertConsumer consumer.username consumer.credentialId)

def resolveAsset (assetCode : Field String) : String :=
  match truthy (assetCode.toOption.map trim) with
  | none => "native"
  | some code => if PaymentIntents.isNativeCode code then "native" else code

def create (consumer : GatewayConsumer) (dto : CreateProductDto) : Promise Product := do
  let localConsumer ← resolveConsumer consumer
  Promise.write (.create .product
    { consumerId := localConsumer.id, name := dto.name,
      description := dto.description.toOption, amount := dto.amount.toOption,
      asset := resolveAsset dto.assetCode, kind := dto.kind.toOption.getD "one_time",
      active := dto.active.toOption.getD true, reference := dto.reference.toOption })

def findOne (consumer : GatewayConsumer) (id : String) : Promise Product := do
  let localConsumer ← resolveConsumer consumer
  match ← Promise.query (.productOwned id localConsumer.id) with
  | none => throw (.notFound "Product not found")
  | some product => pure product

def patchOf (dto : UpdateProductDto) : ProductPatch where
  name := dto.name
  description := dto.description
  amount := dto.amount
  asset := match dto.assetCode with
    | .undefined => .undefined
    | given => .value (resolveAsset given)
  kind := dto.kind
  active := dto.active
  reference := dto.reference

def update (consumer : GatewayConsumer) (id : String) (dto : UpdateProductDto) :
    Promise Product := do
  let _ ← findOne consumer id
  Promise.write (.update .product id (patchOf dto))

def remove (consumer : GatewayConsumer) (id : String) : Promise String := do
  let _ ← findOne consumer id
  let _ ← Promise.write (.delete .product id)
  pure id

end Products

end CosmosPay
