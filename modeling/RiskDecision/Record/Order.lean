import RiskDecision.Decoding
import RiskDecision.Record.View

/-!
# Online orders

The record of an order in an online shop and the context that the client sends along. Every field is
optional in writing.
-/

namespace RiskDecision

/-- What the client knows around an order. -/
structure OrderContext where
  secondsSinceLast : Float := 0
  /-- Average amount of the orders of the user. -/
  averageAmount : Float := 0
  deriving Repr

namespace OrderContext

/-- The fields in the order of their declaration. -/
def fieldNames : List String :=
  ["timeSinceLastTxnSeconds", "avgTxnAmtForUser"]

/-- Reads what the client knows around an order. -/
def decode (j : Json) : Except DecodeError OrderContext :=
  j.record fieldNames fun get => do
    let secondsSinceLast ← Json.withDefault 0 Json.asFloat (get "timeSinceLastTxnSeconds")
    let averageAmount ← Json.withDefault 0 Json.asFloat (get "avgTxnAmtForUser")
    return ⟨secondsSinceLast, averageAmount⟩

/-- Writes what the client knows around an order. -/
def toJson (r : OrderContext) : Json :=
  .ofMembers [
    ("timeSinceLastTxnSeconds", Json.ofFloat r.secondsSinceLast),
    ("avgTxnAmtForUser", Json.ofFloat r.averageAmount)]

/-- What rules see of it. -/
def view (r : OrderContext) : View :=
  .mk "ECommerceClientContext" [
    ("getTimeSinceLastTxnSeconds", Slot.number r.secondsSinceLast),
    ("getAvgTxnAmtForUser", Slot.number r.averageAmount)]

end OrderContext

/-- An order in an online shop. -/
structure OrderTransaction where
  amount : Float := 0
  currency : Option String := none
  itemCount : Int := 0
  productCategory : Option String := none
  paymentMethod : Option String := none
  userId : Option String := none
  ipAddressCountry : Option String := none
  isGuestCheckout : Bool := false
  accountAgeDays : Int := 0
  emailDomain : Option String := none
  shippingCountry : Option String := none
  billingCountry : Option String := none
  clientContext : Option OrderContext := none
  deriving Repr

namespace OrderTransaction

/-- The fields in the order of their declaration. -/
def fieldNames : List String :=
  ["transactionAmount", "currency", "itemCount", "productCategory", "paymentMethod", "userId",
   "ipAddressCountry", "isGuestCheckout", "accountAgeInDays", "emailDomain", "shippingCountry",
   "billingCountry", "clientContext"]

/-- Reads an order in an online shop. -/
def decode (j : Json) : Except DecodeError OrderTransaction :=
  j.record fieldNames fun get => do
    let amount ← Json.withDefault 0 Json.asFloat (get "transactionAmount")
    let currency ← Json.optional Json.asText (get "currency")
    let itemCount ← Json.withDefault 0 (Json.asInt 64) (get "itemCount")
    let productCategory ← Json.optional Json.asText (get "productCategory")
    let paymentMethod ← Json.optional Json.asText (get "paymentMethod")
    let userId ← Json.optional Json.asText (get "userId")
    let ipAddressCountry ← Json.optional Json.asText (get "ipAddressCountry")
    let isGuestCheckout ← Json.withDefault false Json.asBool (get "isGuestCheckout")
    let accountAgeDays ← Json.withDefault 0 (Json.asInt 64) (get "accountAgeInDays")
    let emailDomain ← Json.optional Json.asText (get "emailDomain")
    let shippingCountry ← Json.optional Json.asText (get "shippingCountry")
    let billingCountry ← Json.optional Json.asText (get "billingCountry")
    let clientContext ← Json.optional OrderContext.decode (get "clientContext")
    return ⟨amount, currency, itemCount, productCategory, paymentMethod, userId, ipAddressCountry,
      isGuestCheckout, accountAgeDays, emailDomain, shippingCountry, billingCountry,
      clientContext⟩

/-- Writes an order in an online shop. -/
def toJson (r : OrderTransaction) : Json :=
  .ofMembers [
    ("transactionAmount", Json.ofFloat r.amount),
    ("currency", Json.ofText? r.currency),
    ("itemCount", Json.int r.itemCount),
    ("productCategory", Json.ofText? r.productCategory),
    ("paymentMethod", Json.ofText? r.paymentMethod),
    ("userId", Json.ofText? r.userId),
    ("ipAddressCountry", Json.ofText? r.ipAddressCountry),
    ("isGuestCheckout", Json.bool r.isGuestCheckout),
    ("accountAgeInDays", Json.int r.accountAgeDays),
    ("emailDomain", Json.ofText? r.emailDomain),
    ("shippingCountry", Json.ofText? r.shippingCountry),
    ("billingCountry", Json.ofText? r.billingCountry),
    ("clientContext", match r.clientContext with
      | none => .null
      | some c => c.toJson)]

/-- What rules see of it. -/
def view (r : OrderTransaction) : View :=
  .mk "ECommerceTransaction" [
    ("getTransactionAmount", Slot.number r.amount),
    ("getCurrency", Slot.text r.currency),
    ("getItemCount", Slot.count r.itemCount),
    ("getProductCategory", Slot.text r.productCategory),
    ("getPaymentMethod", Slot.text r.paymentMethod),
    ("getUserId", Slot.text r.userId),
    ("getIpAddressCountry", Slot.text r.ipAddressCountry),
    ("isGuestCheckout", Slot.flag r.isGuestCheckout),
    ("getAccountAgeInDays", Slot.count r.accountAgeDays),
    ("getEmailDomain", Slot.text r.emailDomain),
    ("getShippingCountry", Slot.text r.shippingCountry),
    ("getBillingCountry", Slot.text r.billingCountry),
    ("getClientContext", Slot.child (r.clientContext.map OrderContext.view))]

end OrderTransaction

end RiskDecision
